/-
  Registers across context switches.

  A `Processor` runs the machine of `Gthreads.Machine` together with the registers and the contents
  of the `gth_ctx_t` objects.  The code of each stack may put anything into the registers; a label
  carries what they hold when the code segment gets to its context operation.  `called` remembers,
  for each stack, the registers with which it called `gth_ctx_swap` last.

  Contexts of threads have a place for the FPU state, `scheduler_ctx` has none.  So a thread always
  finds its registers again; main finds the general registers again, but the FPU state of the thread
  that has just left the CPU.
-/
import Gthreads.Context
import Gthreads.Lifecycle

namespace Gth

/-- The call of `gth_ctx_swap` with which a code segment ends. -/
inductive Switch where
  /-- `gth_scheduler_run_next` on stack `x`: from `scheduler_ctx` to `threads[i].ctx`. -/
  | dispatch (x : Ctx) (i : Slot)
  /-- `gth_thread_yield`, `gth_thread_block`, `gth_sem_wait` and `gth_cond_wait` of the thread in
      slot `i`: from `threads[i].ctx` to `scheduler_ctx`. -/
  | leave (i : Slot)
  /-- The end of `gth_context_thread_trampoline`: from a zeroed local context to `scheduler_ctx`. -/
  | exit
  deriving DecidableEq

def Switch.toScheduler : Switch → Bool
  | .dispatch _ _ => false
  | .leave _ => true
  | .exit => true

/-- The switch at the end of a code segment that left the core `t`: the newest entry of its
    history. -/
def switchOf (l : Label) (t : Core) : Option Switch :=
  match t.cpu, t.hist with
  | .swap _, .dispatch _ x i _ :: _ => some (.dispatch x i)
  | .swap _, .leave (.green i) _ :: _ => some (match l with
    | .call _ (.exit _) => .exit
    | _ => .leave i)
  | _, _ => none

structure Processor where
  state : State
  regs : Registers
  /-- Where the last `gth_ctx_swap` went on. -/
  rip : Rip := .null
  schedulerCtx : GthCtx := {}
  threadCtx : Slot → GthCtx := fun _ => {}
  /-- Ghost: the registers with which a stack called `gth_ctx_swap` last. -/
  called : Ctx → Option Registers := fun _ => none

namespace Processor

/-- The contexts of the slots that a code segment filled (`gth_thread_create`: a zeroed record and
    `gth_context_init_thread`) or emptied (`gth_thread_release_slot`: `gth_context_destroy` and a
    zeroed record). -/
def prepare (p : Processor) (r : Registers) (t : Core) : Processor :=
  let empty i := decide ((p.state.core.threads i).state = .empty)
  let empty' i := decide ((t.threads i).state = .empty)
  { p with
    threadCtx := fun i =>
      if empty i && !empty' i then contextInitThread r.fpu {} (t.threads i).stack
      else if !empty i && empty' i then {}
      else p.threadCtx i
    called := fun x => match x with
      | .main => p.called .main
      | .green i => if empty i = empty' i then p.called (.green i) else none }

/-- The call of `gth_ctx_swap`, made with the registers `r`. -/
def perform (p : Processor) (r : Registers) : Option Switch → Processor
  | none => { p with regs := r }
  | some (.dispatch x i) =>
    let (regs, rip, ctx) := ctxSwap r p.schedulerCtx (p.threadCtx i)
    { p with
      regs := regs, rip := rip, schedulerCtx := ctx
      called := Function.update p.called x (some r) }
  | some (.leave i) =>
    let (regs, rip, ctx) := ctxSwap r (p.threadCtx i) p.schedulerCtx
    { p with
      regs := regs, rip := rip, threadCtx := Function.update p.threadCtx i ctx
      called := Function.update p.called (.green i) (some r) }
  | some .exit =>
    let (regs, rip, _) := ctxSwap r {} p.schedulerCtx
    { p with regs := regs, rip := rip }

/-- The processor after a code segment that led to the state `t`. -/
def after (p : Processor) (l : Label × Registers) (t : State) : Processor :=
  { (p.prepare l.2 t.core).perform l.2 (switchOf l.1 t.core) with state := t }

/-- One step: a step of the machine, whose code has left `l.2` in the registers. -/
def step (W : World) (p : Processor) (l : Label × Registers) : Option Processor :=
  (State.step W p.state l.1).map (p.after l)

/-- **A call that returns finds its registers again**: when `gth_ctx_swap` has just gone on in a
    stack that called it before, then at the place where that call returns, and with the registers
    it was called with. -/
def restoredAt (p : Processor) : Cpu → Prop
  | .swap (some k) => k.frame ≠ .entry → p.rip = .resume ∧ p.called k.ctx = some p.regs
  | _ => True

def Restored (p : Processor) : Prop := p.restoredAt p.state.core.cpu

instance (p : Processor) : ∀ c, Decidable (p.restoredAt c)
  | .swap (some _) => inferInstanceAs (Decidable (_ → _ ∧ _))
  | .swap none => isTrue trivial
  | .user _ => isTrue trivial
  | .sched _ _ => isTrue trivial

instance (p : Processor) : Decidable p.Restored := inferInstanceAs (Decidable (p.restoredAt _))

/-- The same without the FPU state of main. -/
def RestoredButMainFpu (p : Processor) : Prop :=
  ∀ k, p.state.core.cpu = .swap (some k) → k.frame ≠ .entry → p.rip = .resume ∧
    ∃ r, p.called k.ctx = some r ∧ p.regs.gpr = r.gpr ∧ (k.ctx ≠ .main → p.regs.fpu = r.fpu)

/-- A thread that leaves the CPU has the FPU state with which main had switched to it. -/
def KeepsMainFpu (W : World) (p : Processor) (l : Label × Registers) : Prop :=
  ∀ t, State.step W p.state l.1 = some t →
    (switchOf l.1 t.core).any Switch.toScheduler = true →
      (p.called .main).map Registers.fpu = some l.2.fpu

instance (W : World) (p : Processor) (l : Label × Registers) : Decidable (KeepsMainFpu W p l) :=
  Exec.decideNext _

end Processor

namespace Kernel
variable {s t : Kernel} {l : Option (Ctx × Call)}

/-! ## What a transition does to the contexts -/

/-- No context is filled, emptied or written. -/
structure Kept (s t : Kernel) : Prop where
  ctx : ∀ j, (t.threads j).ctx = (s.threads j).ctx
  empty : ∀ j, (t.threads j).state = .empty ↔ (s.threads j).state = .empty

theorem Kept.of_eq (h : t.threads = s.threads) : Kept s t := by
  constructor <;> intro j <;> rw [h]

theorem Kept.of_woken (h : Woken s t) : Kept s t := by
  refine ⟨h.ctx, fun j => ?_⟩
  rcases h.state j with hs | ⟨hb, hr⟩
  · rw [hs]
  · rw [hb, hr]
    exact ⟨nofun, nofun⟩

theorem Kept.of_set (i : Slot) (r : ThreadRecord) (h : t.threads = Function.update s.threads i r)
    (hctx : r.ctx = (s.threads i).ctx) (hempty : r.state = .empty ↔ (s.threads i).state = .empty) :
    Kept s t := by
  constructor <;> intro j <;> by_cases hj : j = i
  · rw [h, hj, Function.update_self]
    exact hctx
  · rw [h, Function.update_of_ne hj]
  · rw [h, hj, Function.update_self]
    exact hempty
  · rw [h, Function.update_of_ne hj]

/-- What a transition does to the contexts. -/
inductive SwitchMove (s : Kernel) (l : Option (Ctx × Call)) (t : Kernel) : Prop where
  | stay : (∀ k, t.cpu ≠ .swap k) → (∀ i, t.OnCpu i → s.OnCpu i) → Kept s t → SwitchMove s l t
  | create (i : Slot) : (∀ k, t.cpu ≠ .swap k) → (∀ i, t.OnCpu i → s.OnCpu i) →
      (s.threads i).state = .empty → (t.threads i).state ≠ .empty →
      (t.threads i).ctx = some ⟨.green i, .entry⟩ → (∀ j, j ≠ i → t.threads j = s.threads j) →
      SwitchMove s l t
  | free (i : Slot) : (∀ k, t.cpu ≠ .swap k) → (∀ i, t.OnCpu i → s.OnCpu i) →
      t.threads i = {} → (∀ j, j ≠ i → t.threads j = s.threads j) → SwitchMove s l t
  | dispatch (i : Slot) (f : Frame) (act : Nat) (tid : Tid) :
      t.cpu = .swap (some ⟨.green i, f⟩) → (s.threads i).ctx = some ⟨.green i, f⟩ →
      t.hist = .dispatch act .main i tid :: s.hist → Kept s t → SwitchMove s l t
  | leave (i : Slot) (k : Kont) (h : List Obs) : s.OnCpu i → IsDispatcher k →
      (∀ x v, l ≠ some (x, .exit v)) → t.cpu = .swap (some k) →
      t.hist = .leave (.green i) (some k) :: h →
      (∀ j, j ≠ i → (t.threads j).ctx = (s.threads j).ctx) →
      (∀ j, (t.threads j).state = .empty ↔ (s.threads j).state = .empty) → SwitchMove s l t
  | exit (i : Slot) (v : Nat) (k : Kont) (h : List Obs) : s.OnCpu i → IsDispatcher k →
      l = some (.green i, .exit v) → t.cpu = .swap (some k) →
      t.hist = .leave (.green i) (some k) :: h → Kept s t → SwitchMove s l t

theorem Ok.onCpu_ne_empty (hok : s.Ok) {i : Slot} (h : s.OnCpu i) :
    (s.threads i).state ≠ .empty := by
  rcases hok.onCpu h with hs | hs <;> rw [hs] <;> decide

/-- The stack `x` runs: in user code, or it has just been loaded. -/
def Runs (s : Kernel) (x : Ctx) : Prop := s.cpu = .user x ∨ ∃ f, s.cpu = .swap (some ⟨x, f⟩)

theorem Locking.runs {x : Ctx} {m : Addr} {via : Option Addr} (h : s.Locking x m via l) :
    s.Runs x := by
  cases h with
  | call hcpu _ => exact Or.inl hcpu
  | woken i via hx hcpu => exact Or.inr ⟨_, hx ▸ hcpu⟩
  | relock i c hx hcpu _ => exact Or.inr ⟨_, hx ▸ hcpu⟩

/-- The stack goes on in user code. -/
theorem Runs.onCpu {x : Ctx} (h : s.Runs x) (hcpu : t.cpu = .user x) (i : Slot) (hi : t.OnCpu i) :
    s.OnCpu i := by
  rcases hi with hi | ⟨f, hi⟩
  · cases hcpu.symm.trans hi
    exact h
  · nomatch hcpu.symm.trans hi

theorem SwitchMove.ret {x : Ctx} (h : s.Runs x) (hcpu : t.cpu = .user x) (hkept : Kept s t) :
    SwitchMove s l t := by
  refine .stay (fun k hk => ?_) (h.onCpu hcpu) hkept
  nomatch hcpu.symm.trans hk

/-- Main goes on in the scheduler. -/
theorem SwitchMove.sched {caller : Caller} (hcpu : t.cpu = .sched .main caller)
    (hkept : Kept s t) : SwitchMove s l t := by
  refine .stay (fun k hk => ?_) (fun i hi => ?_) hkept
  · nomatch hcpu.symm.trans hk
  · rcases hi with hi | ⟨f, hi⟩ <;> nomatch hcpu.symm.trans hi

/-- A slot is freed by a call that returns. -/
theorem SwitchMove.freed {x : Ctx} {i : Slot} (h : s.Runs x) (hcpu : t.cpu = .user x)
    (ht : t.threads = Function.update s.threads i {}) : SwitchMove s l t := by
  refine .free i (fun k hk => ?_) (h.onCpu hcpu) ?_ fun j hj => ?_
  · nomatch hcpu.symm.trans hk
  · rw [ht, Function.update_self]
  · rw [ht, Function.update_of_ne hj]

/-- A thread is suspended at `f`, some others are woken, and it leaves the CPU. -/
theorem SwitchMove.suspended {K T : Kernel} {i : Slot} {st : ThreadState} {f : Frame} {k : Kont}
    (hok : s.Ok) (hi : s.OnCpu i) (hk : IsDispatcher k) (hl : ∀ x v, l ≠ some (x, .exit v))
    (hst : st ≠ .empty)
    (hK : K.threads = Function.update s.threads i
      { s.threads i with state := st, ctx := some ⟨.green i, f⟩ })
    (hT : Kept K T) : SwitchMove s l (T.leave i k) := by
  refine .leave i k T.hist hi hk hl rfl rfl (fun j hj => ?_) (fun j => ?_)
  · refine (hT.ctx j).trans ?_
    rw [hK, Function.update_of_ne hj]
  · refine (hT.empty j).trans ?_
    by_cases hj : j = i
    · rw [hK, hj, Function.update_self]
      exact ⟨fun h => absurd h hst, fun h => absurd h (hok.onCpu_ne_empty hi)⟩
    · rw [hK, Function.update_of_ne hj]

theorem empty_iff_of_ne {i : Slot} {st : ThreadState} (hi : (s.threads i).state ≠ .empty)
    (hst : st ≠ .empty) : st = .empty ↔ (s.threads i).state = .empty :=
  ⟨fun h => absurd h hst, fun h => absurd h hi⟩

theorem ThreadStep.switch_cases (hok : s.Ok) (hstep : ThreadStep s l t) : SwitchMove s l t := by
  cases hstep with
  | fail x c st hcpu _ => exact .ret (Or.inl hcpu) rfl (.of_eq rfl)
  | query x c r hcpu _ => exact .ret (Or.inl hcpu) rfl (.of_eq rfl)
  | createFail x c st i hcpu _ _ _ => exact .freed (i := i) (Or.inl hcpu) rfl rfl
  | create x c i r hcpu _ hi hst hctx =>
    have hr : ((s.setThread i r).ret x c ⟨.ok, [r.tid]⟩).threads i = r := Function.update_self _ _ _
    refine .create i nofun (Runs.onCpu (Or.inl hcpu) rfl) hi ?_ ?_ fun j hj => ?_
    · rw [hr, hst]
      decide
    · rw [hr]
      exact hctx
    · exact Function.update_of_ne hj _ _
  | schedule caller _ => exact .sched rfl (.of_eq rfl)
  | yield i k hcpu hk =>
    exact .suspended hok (Or.inl hcpu) hk nofun (by decide) rfl (.of_eq rfl)
  | cancel x tid i hcpu hfind _ =>
    exact .ret (Or.inl hcpu) rfl (.of_set i { s.threads i with state := .canceled, retval := 0 }
      rfl rfl (empty_iff_of_ne (findThread_some hfind).1 nofun))
  | exit i v r k hcpu _ hctx hterm hk =>
    have hr : r.state ≠ .empty := by
      intro h
      rw [h] at hterm
      nomatch hterm
    exact .exit i v k s.hist (Or.inl hcpu) hk rfl rfl rfl
      (.of_set i r rfl hctx (empty_iff_of_ne (hok.onCpu_ne_empty (Or.inl hcpu)) hr))
  | release tid out i hcpu _ _ => exact .freed (i := i) (Or.inl hcpu) rfl rfl

theorem SchedStep.switch_cases (hstep : SchedStep s l t) : SwitchMove s l t := by
  cases hstep with
  | idle caller st _ _ =>
    refine .stay nofun (fun i hi => ?_) (.of_eq rfl)
    rcases hi with hi | ⟨f, hi⟩ <;> nomatch hi
  | dispatch caller act i f _ hst hctx _ =>
    refine .dispatch i f act _ rfl hctx rfl (.of_set i
      { s.threads i with state := .running } rfl rfl (empty_iff_of_ne ?_ nofun))
    rw [hst]
    decide
  | backYield act hcpu => exact .ret (Or.inr ⟨_, hcpu⟩) rfl (.of_eq rfl)
  | backRelease act tid out i hcpu _ _ => exact .freed (i := i) (Or.inr ⟨_, hcpu⟩) rfl rfl
  | backLoop act caller _ => exact .sched rfl (.of_eq rfl)
  | start i hcpu => exact .ret (Or.inr ⟨_, hcpu⟩) rfl (.of_eq rfl)
  | yielded i hcpu => exact .ret (Or.inr ⟨_, hcpu⟩) rfl (.of_eq rfl)

theorem MutexStep.switch_cases (hok : s.Ok) (hstep : MutexStep s l t) : SwitchMove s l t := by
  cases hstep with
  | init x m hcpu => exact .ret (Or.inl hcpu) rfl (.of_eq rfl)
  | acquire x m via l hat _ => exact .ret hat.runs rfl (.of_eq rfl)
  | lockBlock i m via l k hat _ _ hk =>
    refine .suspended hok hat.runs hk ?_ (by decide) rfl (.of_eq rfl)
    cases hat <;> nofun
  | lockBusy i m via hcpu _ => exact .ret (Or.inr ⟨_, hcpu⟩) rfl (.of_eq rfl)
  | relockFail i c m st hcpu _ => exact .ret (Or.inr ⟨_, hcpu⟩) rfl (.of_eq rfl)
  | trylock x m hcpu _ _ => exact .ret (Or.inl hcpu) rfl (.of_eq rfl)
  | unlock x m hcpu _ _ _ =>
    have hw := woken_wake (s.setMutex m { s.mutex m with locked := 0, owner := 0 }) (.mutex m)
    exact .ret (Or.inl hcpu) rfl ⟨(Kept.of_woken hw).ctx, (Kept.of_woken hw).empty⟩
  | destroy x m hcpu _ _ => exact .ret (Or.inl hcpu) rfl (.of_eq rfl)

theorem SemStep.switch_cases (hok : s.Ok) (hstep : SemStep s l t) : SwitchMove s l t := by
  cases hstep with
  | init x a n hcpu => exact .ret (Or.inl hcpu) rfl (.of_eq rfl)
  | take x a hcpu _ _ => exact .ret (Or.inl hcpu) rfl (.of_eq rfl)
  | block i a k hcpu _ _ hk =>
    exact .suspended hok (Or.inl hcpu) hk nofun (by decide) rfl (.of_eq rfl)
  | waited i a hcpu => exact .ret (Or.inr ⟨_, hcpu⟩) rfl (.of_eq rfl)
  | wake x a n q hcpu _ _ =>
    have hw := woken_wake (s.log (.semWake (s.tidAt n) a)) (.sem a)
    exact .ret (Or.inl hcpu) rfl ⟨(Kept.of_woken hw).ctx, (Kept.of_woken hw).empty⟩
  | give x a hcpu _ _ _ => exact .ret (Or.inl hcpu) rfl (.of_eq rfl)
  | destroy x a hcpu _ => exact .ret (Or.inl hcpu) rfl (.of_eq rfl)

theorem CondStep.switch_cases (hok : s.Ok) (hstep : CondStep s l t) : SwitchMove s l t := by
  cases hstep with
  | init x c hcpu => exact .ret (Or.inl hcpu) rfl (.of_eq rfl)
  | block i c m k hcpu _ _ _ _ hk =>
    have hw := Kept.of_woken (woken_wake ((s.setMutex m
      { s.mutex m with locked := 0, owner := 0 }).wait i (.cond c) (.condWait c m)) (.mutex m))
    refine .suspended hok (Or.inl hcpu) hk nofun ?_ rfl ⟨hw.ctx, hw.empty⟩
    decide
  | fail i c m st hcpu _ =>
    exact .ret (Or.inl hcpu) rfl (.of_set i { s.threads i with state := .running } rfl rfl
      (empty_iff_of_ne (hok.onCpu_ne_empty (Or.inl hcpu)) nofun))
  | signal x c hcpu =>
    have hw := Kept.of_woken (woken_wake s (.cond c))
    exact .ret (Or.inl hcpu) rfl ⟨hw.ctx, hw.empty⟩
  | broadcast x c hcpu =>
    have hw := Kept.of_woken (woken_wakes (.cond c) (s.queue (.cond c)).length s)
    exact .ret (Or.inl hcpu) rfl ⟨hw.ctx, hw.empty⟩
  | destroy x c hcpu _ => exact .ret (Or.inl hcpu) rfl (.of_eq rfl)

/-- **Inversion for contexts.** -/
theorem Step.switch_cases (hok : s.Ok) (hstep : Step s l t) : SwitchMove s l t := by
  cases hstep with
  | thread hstep => exact hstep.switch_cases hok
  | sched hstep => exact hstep.switch_cases
  | mutex hstep => exact hstep.switch_cases hok
  | sem hstep => exact hstep.switch_cases hok
  | cond hstep => exact hstep.switch_cases hok

end Kernel

/-! ## What the contexts hold -/

namespace Processor
variable {p : Processor} {l : Label × Registers} {t : State}

/-- A context holds the registers of the last call, but `scheduler_ctx` no FPU state; and whoever
    goes on behind a `gth_ctx_swap` has called it. -/
structure Mirrors (p : Processor) : Prop where
  noArea : p.schedulerCtx.fxsaveArea = false
  main : ∀ r, p.called .main = some r →
    p.schedulerCtx.gpr = r.gpr ∧ p.schedulerCtx.rip = .resume
  green : ∀ i r, p.called (.green i) = some r → p.threadCtx i = ⟨r.gpr, .resume, true, r.fpu⟩
  area : ∀ i, (p.state.core.threads i).state ≠ .empty → (p.threadCtx i).fxsaveArea = true
  parked : ∀ i f, (p.state.core.threads i).ctx = some ⟨.green i, f⟩ → f ≠ .entry →
    p.called (.green i) ≠ none
  onCpu : ∀ i, p.state.core.kernel.OnCpu i → p.called .main ≠ none

theorem prepare_eq {r : Registers} {c : Core}
    (h : ∀ j, (c.threads j).state = .empty ↔ (p.state.core.threads j).state = .empty) :
    p.prepare r c = p := by
  have hthread : ∀ j, (if decide ((p.state.core.threads j).state = .empty) &&
        !decide ((c.threads j).state = .empty) then contextInitThread r.fpu {} (c.threads j).stack
      else if !decide ((p.state.core.threads j).state = .empty) &&
        decide ((c.threads j).state = .empty) then {} else p.threadCtx j) = p.threadCtx j := by
    intro j
    by_cases hj : (p.state.core.threads j).state = .empty <;> simp [h j, hj]
  have hcalled : (fun x => match x with
      | .main => p.called .main
      | .green i => if decide ((p.state.core.threads i).state = .empty)
          = decide ((c.threads i).state = .empty) then p.called (.green i) else none)
      = p.called := by
    funext x
    cases x with
    | main => rfl
    | green i => simp [h i]
  unfold prepare
  simp only [hthread, hcalled]

theorem switchOf_none {l : Label} {c : Core} (h : ∀ k, c.cpu ≠ .swap k) : switchOf l c = none := by
  unfold switchOf
  split
  · exact absurd ‹_› (h _)
  · exact absurd ‹_› (h _)
  · rfl

/-- What is known after a step. -/
structure Switched (p : Processor) (l : Label × Registers) (t : State) : Prop where
  mirrors : (p.after l t).Mirrors
  butFpu : (p.after l t).RestoredButMainFpu
  restored : (p.after l t).Restored ↔ ((switchOf l.1 t.core).any Switch.toScheduler = true →
    (p.called .main).map Registers.fpu = some l.2.fpu)

/-- A thread that has called `gth_ctx_swap` keeps its context. -/
theorem prepare_called {r r' : Registers} {c : Core} {j : Slot}
    (h : (p.prepare r c).called (.green j) = some r') :
    p.called (.green j) = some r' ∧ (p.prepare r c).threadCtx j = p.threadCtx j := by
  unfold prepare at h ⊢
  dsimp only at h ⊢
  split at h
  · next hempty =>
    refine ⟨h, ?_⟩
    by_cases hj : (p.state.core.threads j).state = .empty <;>
      simp [hj, ← decide_eq_decide.mp hempty]
  · nomatch h

theorem prepare_area (h : p.Mirrors) {r : Registers} {c : Core} {j : Slot}
    (hj : (c.threads j).state ≠ .empty) : ((p.prepare r c).threadCtx j).fxsaveArea = true := by
  unfold prepare
  by_cases hold : (p.state.core.threads j).state = .empty
  · simp [hold, hj, contextInitThread_eq]
  · simp [hold, hj, h.area j hold]

/-- Without a switch a context may be made or destroyed, and nothing is restored. -/
theorem Switched.of_stay (h : p.Mirrors) (hcpu : ∀ k, t.core.cpu ≠ .swap k)
    (honCpu : ∀ i, t.core.kernel.OnCpu i → p.state.core.kernel.OnCpu i)
    (hctx : ∀ j f, (t.core.threads j).ctx = some ⟨.green j, f⟩ → f ≠ .entry →
      (p.state.core.threads j).ctx = some ⟨.green j, f⟩ ∧
      ((t.core.threads j).state = .empty ↔ (p.state.core.threads j).state = .empty)) :
    p.Switched l t := by
  have hafter : p.after l t = { p.prepare l.2 t.core with regs := l.2, state := t } := by
    unfold after
    rw [switchOf_none hcpu]
    rfl
  refine ⟨?_, fun k hk => absurd hk (hcpu _), ?_⟩
  · rw [hafter]
    refine ⟨h.noArea, h.main, fun i r hr => ?_, fun i hi => prepare_area h hi, fun j f hf hne => ?_,
      fun i hi => h.onCpu i (honCpu i hi)⟩
    · obtain ⟨hr, hsame⟩ := prepare_called hr
      exact hsame.trans (h.green i r hr)
    · obtain ⟨hold, hempty⟩ := hctx j f hf hne
      show (if _ then _ else _) ≠ none
      rw [if_pos (decide_eq_decide.mpr hempty.symm)]
      exact h.parked j f hold hne
  rw [switchOf_none hcpu]
  refine iff_of_true ?_ nofun
  show restoredAt _ t.core.cpu
  cases hc : t.core.cpu with
  | swap k => exact absurd hc (hcpu _)
  | _ => trivial

/-- A dispatch: `scheduler_ctx` takes the registers of main, and the thread finds its own. -/
theorem Switched.of_dispatch (h : p.Mirrors) {i : Slot} {f : Frame} {act : Nat} {tid : Tid}
    {hist : List Obs} (hcpu : t.core.cpu = .swap (some ⟨.green i, f⟩))
    (hi : (p.state.core.threads i).ctx = some ⟨.green i, f⟩)
    (hhist : t.core.hist = .dispatch act .main i tid :: hist)
    (hkept : Kernel.Kept p.state.core.kernel t.core.kernel) : p.Switched l t := by
  have hsw : switchOf l.1 t.core = some (.dispatch .main i) := by
    unfold switchOf
    rw [hcpu, hhist]
  have hafter : p.after l t =
      { p with
        state := t, regs := (ctxSwap l.2 p.schedulerCtx (p.threadCtx i)).1
        rip := (ctxSwap l.2 p.schedulerCtx (p.threadCtx i)).2.1
        schedulerCtx := (ctxSwap l.2 p.schedulerCtx (p.threadCtx i)).2.2
        called := Function.update p.called .main (some l.2) } := by
    unfold after
    rw [hsw, prepare_eq hkept.empty]
    rfl
  have hrestored : f ≠ .entry → (p.after l t).rip = .resume ∧
      (p.after l t).called (.green i) = some (p.after l t).regs := by
    intro hf
    obtain ⟨r, hr⟩ := Option.ne_none_iff_exists'.mp (h.parked i f hi hf)
    rw [hafter]
    show (ctxSwap l.2 p.schedulerCtx (p.threadCtx i)).2.1 = _ ∧
      p.called (.green i) = some (ctxSwap l.2 p.schedulerCtx (p.threadCtx i)).1
    rw [h.green i r hr, ctxSwap_load]
    exact ⟨rfl, hr⟩
  have hk : (p.after l t).state.core.cpu = .swap (some ⟨.green i, f⟩) := by
    rw [hafter]
    exact hcpu
  refine ⟨?_, fun k hk' hf => ?_, ?_⟩
  · rw [hafter]
    refine ⟨?_, fun r hr => ?_, h.green, fun j hj => h.area j ((hkept.empty j).not.mp hj),
      fun j f' hf' hne' => h.parked j f' ((hkept.ctx j).symm.trans hf') hne', nofun⟩
    · rw [ctxSwap_saved]
      exact h.noArea
    · cases hr
      rw [ctxSwap_saved]
      exact ⟨rfl, rfl⟩
  · cases hk.symm.trans hk'
    exact ⟨(hrestored hf).1, _, (hrestored hf).2, rfl, fun _ => rfl⟩
  · rw [hsw]
    refine iff_of_true ?_ nofun
    show restoredAt _ _
    rw [hk]
    exact hrestored

/-- Back to the scheduler: main finds what `scheduler_ctx` holds, and the FPU state of the
    thread. -/
theorem Switched.of_back (h : p.Mirrors) (src : GthCtx) (threadCtx : Slot → GthCtx)
    (called : Ctx → Option Registers) {k : Kont} (hcpu : t.core.cpu = .swap (some k))
    (hk : Kernel.IsDispatcher k)
    (hsw : (switchOf l.1 t.core).any Switch.toScheduler = true)
    (hafter : p.after l t =
      { p with
        state := t, regs := (ctxSwap l.2 src p.schedulerCtx).1
        rip := (ctxSwap l.2 src p.schedulerCtx).2.1, threadCtx := threadCtx, called := called })
    (hmain : called .main = p.called .main) (honCpu : p.called .main ≠ none)
    (hgreen : ∀ i r, called (.green i) = some r → threadCtx i = ⟨r.gpr, .resume, true, r.fpu⟩)
    (harea : ∀ i, (t.core.threads i).state ≠ .empty → (threadCtx i).fxsaveArea = true)
    (hparked : ∀ i f, (t.core.threads i).ctx = some ⟨.green i, f⟩ → f ≠ .entry →
      called (.green i) ≠ none) : p.Switched l t := by
  obtain ⟨r, hr⟩ := Option.ne_none_iff_exists'.mp honCpu
  obtain ⟨act, caller, rfl⟩ := hk
  have hk : (p.after l t).state.core.cpu = .swap (some ⟨.main, .runNext act 0 caller⟩) := by
    rw [hafter]
    exact hcpu
  have hgpr : (p.after l t).regs.gpr = r.gpr ∧ (p.after l t).rip = .resume := by
    rw [hafter]
    exact h.main r hr
  have hfpu : (p.after l t).regs.fpu = l.2.fpu := by
    rw [hafter]
    refine (ctxSwap_fpu l.2 src p.schedulerCtx).trans ?_
    rw [h.noArea]
    rfl
  have hcalled : (p.after l t).called .main = some r := by
    rw [hafter]
    exact hmain.trans hr
  refine ⟨?_, fun k' hk' _ => ?_, ?_⟩
  · rw [hafter]
    refine ⟨h.noArea, fun r' hr' => h.main r' (hmain.symm.trans hr'), hgreen, harea, hparked,
      fun i _ => ?_⟩
    show called .main ≠ none
    rw [hmain]
    exact honCpu
  · cases hk.symm.trans hk'
    exact ⟨hgpr.2, r, hcalled, hgpr.1, fun hne => absurd rfl hne⟩
  · have hrestored : (p.after l t).Restored ↔ (p.after l t).regs = r := by
      show restoredAt _ _ ↔ _
      rw [hk]
      show (_ → _ ∧ _) ↔ _
      rw [hcalled]
      exact ⟨fun hall => (Option.some.inj (hall nofun).2).symm,
        fun heq _ => ⟨hgpr.2, congrArg some heq.symm⟩⟩
    rw [hrestored, hsw, hr]
    constructor
    · intro heq _
      rw [← hfpu, heq]
      rfl
    · intro hkeep
      refine Registers.ext hgpr.1 (hfpu.trans ?_)
      exact (Option.some.inj (hkeep rfl)).symm

/-- A thread yields or blocks: its context takes its registers. -/
theorem Switched.of_leave (h : p.Mirrors) {i : Slot} {k : Kont} {hist : List Obs}
    (hcpu : t.core.cpu = .swap (some k)) (hk : Kernel.IsDispatcher k)
    (hhist : t.core.hist = .leave (.green i) (some k) :: hist)
    (hl : ∀ x v, l.1 ≠ .call x (.exit v)) (honCpu : p.called .main ≠ none)
    (hi : (p.state.core.threads i).state ≠ .empty)
    (hoff : ∀ j, j ≠ i → (t.core.threads j).ctx = (p.state.core.threads j).ctx)
    (hempty : ∀ j, (t.core.threads j).state = .empty ↔ (p.state.core.threads j).state = .empty) :
    p.Switched l t := by
  have hsw : switchOf l.1 t.core = some (.leave i) := by
    unfold switchOf
    rw [hcpu, hhist]
    dsimp only
    split
    · next x v heq => exact absurd heq (hl x v)
    · rfl
  have hsaved : (ctxSwap l.2 (p.threadCtx i) p.schedulerCtx).2.2
      = ⟨l.2.gpr, .resume, true, l.2.fpu⟩ := by
    rw [ctxSwap_saved, h.area i hi]
    rfl
  refine .of_back h (p.threadCtx i)
    (Function.update p.threadCtx i ⟨l.2.gpr, .resume, true, l.2.fpu⟩)
    (Function.update p.called (.green i) (some l.2)) hcpu hk (by rw [hsw]; rfl) ?_ (by simp) honCpu
    (fun j r hr => ?_) (fun j hj => ?_) (fun j f hf hne => ?_)
  · unfold after
    rw [hsw, prepare_eq hempty, ← hsaved]
    rfl
  · by_cases hji : j = i
    · subst hji
      rw [Function.update_self] at hr ⊢
      cases hr
      rfl
    · rw [Function.update_of_ne (fun hc => hji (Ctx.green.inj hc))] at hr
      rw [Function.update_of_ne hji]
      exact h.green j r hr
  · by_cases hji : j = i
    · rw [hji, Function.update_self]
    · rw [Function.update_of_ne hji]
      exact h.area j ((hempty j).not.mp hj)
  · by_cases hji : j = i
    · rw [hji, Function.update_self]
      nofun
    · rw [Function.update_of_ne (fun hc => hji (Ctx.green.inj hc))]
      exact h.parked j f ((hoff j hji).symm.trans hf) hne

/-- A thread ends: its registers go into a context that nobody uses. -/
theorem Switched.of_exit (h : p.Mirrors) {i : Slot} {k : Kont} {hist : List Obs} {x : Ctx} {v : Nat}
    (hcpu : t.core.cpu = .swap (some k)) (hk : Kernel.IsDispatcher k)
    (hhist : t.core.hist = .leave (.green i) (some k) :: hist) (hl : l.1 = .call x (.exit v))
    (honCpu : p.called .main ≠ none) (hkept : Kernel.Kept p.state.core.kernel t.core.kernel) :
    p.Switched l t := by
  have hsw : switchOf l.1 t.core = some .exit := by
    unfold switchOf
    rw [hcpu, hhist, hl]
  refine .of_back h {} p.threadCtx p.called hcpu hk (by rw [hsw]; rfl) ?_ rfl honCpu h.green
    (fun j hj => h.area j ((hkept.empty j).not.mp hj))
    (fun j f hf hne => h.parked j f ((hkept.ctx j).symm.trans hf) hne)
  unfold after
  rw [hsw, prepare_eq hkept.empty]
  rfl

/-- **One step.** -/
theorem Mirrors.switched {W : World} (h : p.Mirrors) (hq : p.state.core.QueuesWf)
    (htame : State.Tame W p.state l.1) (hstep : State.step W p.state l.1 = some t) :
    p.Switched l t := by
  have hok := htame.1.kernel_ok
  have hmove : Kernel.SwitchMove p.state.core.kernel (Kernel.callOf l.1) t.core.kernel := by
    rcases Kernel.step_user_or htame.1 hq htame.2.1 hstep with ⟨heq, x, hx⟩ | hK
    · rw [heq]
      exact .ret (Or.inl hx) hx (.of_eq rfl)
    · exact hK.switch_cases hok
  cases hmove with
  | stay hcpu hon hkept =>
    exact .of_stay h hcpu hon fun j f hf _ => ⟨(hkept.ctx j).symm.trans hf, hkept.empty j⟩
  | create i hcpu hon hold hnew hctx hoff =>
    refine .of_stay h hcpu hon fun j f hf hne => ?_
    by_cases hj : j = i
    · subst hj
      cases hctx.symm.trans hf
      exact absurd rfl hne
    · rw [show t.core.threads j = p.state.core.threads j from hoff j hj] at hf ⊢
      exact ⟨hf, Iff.rfl⟩
  | free i hcpu hon hi hoff =>
    refine .of_stay h hcpu hon fun j f hf hne => ?_
    by_cases hj : j = i
    · rw [hj, show t.core.threads i = {} from hi] at hf
      nomatch hf
    · rw [show t.core.threads j = p.state.core.threads j from hoff j hj] at hf ⊢
      exact ⟨hf, Iff.rfl⟩
  | dispatch i f act tid hcpu hctx hhist hkept => exact .of_dispatch h hcpu hctx hhist hkept
  | leave i k hist hi hk hl hcpu hhist hoff hempty =>
    refine .of_leave h hcpu hk hhist (fun x v heq => hl x v ?_) (h.onCpu i hi)
      (hok.onCpu_ne_empty hi) hoff hempty
    rw [heq]
    rfl
  | exit i v k hist hi hk hl hcpu hhist hkept =>
    exact .of_exit h hcpu hk hhist (Kernel.callOf_some hl) (h.onCpu i hi) hkept

theorem step_some {W : World} {q : Processor} (h : step W p l = some q) :
    ∃ t, State.step W p.state l.1 = some t ∧ q = p.after l t := by
  obtain ⟨t, ht, rfl⟩ := Option.map_eq_some_iff.mp h
  exact ⟨t, ht, rfl⟩

/-- The start: main runs with the registers `r`, and no context has been used. -/
def start (config : ValidConfig) (pageSize : BitVec 64) (files : Path → Option (List UInt8))
    (r : Registers) : Processor := { state := State.start config pageSize files, regs := r }

theorem start_mirrors (config : ValidConfig) (pageSize : BitVec 64)
    (files : Path → Option (List UInt8)) (r : Registers) :
    (start config pageSize files r).Mirrors := by
  have hcore : (start config pageSize files r).state.core.kernel = Kernel.initial :=
    (Kernel.start_kernel config pageSize files).1
  have hthreads : ∀ i, (start config pageSize files r).state.core.threads i = {} :=
    fun i => congrFun (congrArg Kernel.threads hcore) i
  refine ⟨rfl, nofun, nofun, fun i hi => ?_, fun i f hf => ?_, fun i hi => ?_⟩
  · rw [hthreads] at hi
    exact absurd rfl hi
  · rw [hthreads] at hf
    nomatch hf
  · rw [hcore] at hi
    rcases hi with hi | ⟨f, hi⟩ <;> nomatch hi

theorem start_restored (config : ValidConfig) (pageSize : BitVec 64)
    (files : Path → Option (List UInt8)) (r : Registers) :
    (start config pageSize files r).RestoredButMainFpu ∧
      (start config pageSize files r).Restored := by
  have hcpu : (start config pageSize files r).state.core.cpu = .user .main :=
    congrArg Kernel.cpu (Kernel.start_kernel config pageSize files).1
  refine ⟨fun k hk => (nomatch hcpu.symm.trans hk), ?_⟩
  show restoredAt _ _
  rw [hcpu]
  trivial

end Processor

/-- **When contexts find their registers again.**  Main and the threads may change the registers as
    they like.  Every context finds the general registers, the stack pointer and the resume address
    of its last `gth_ctx_swap` again, and every thread the FPU control state; and this holds of all
    contexts, main included, iff each thread has at each of its switches to the scheduler the FPU
    control state that main had at the dispatch. -/
theorem callee_saved_restored_iff (W : World) (config : ValidConfig) (pageSize : BitVec 64)
    (files : Path → Option (List UInt8)) (r : Registers) (ls : List (Label × Registers))
    (p : Processor) (hjoin : JoinsFromMain (ls.map Prod.fst))
    (hcreates : creates (ls.map Prod.fst) < 2 ^ 64)
    (hrun : Exec.exec (Processor.step W) (.start config pageSize files r) ls = some p) :
    Exec.Always (Processor.step W) Processor.RestoredButMainFpu (.start config pageSize files r) ls ∧
    (Exec.Always (Processor.step W) Processor.Restored (.start config pageSize files r) ls ↔
      Exec.Along (Processor.step W) (Processor.KeepsMainFpu W) (.start config pageSize files r)
        ls) := by
  have hstate : ∀ p l q, Processor.step W p l = some q →
      State.step W p.state l.1 = some q.state := by
    intro p l q hq
    obtain ⟨t, ht, rfl⟩ := Processor.step_some hq
    exact ht
  have htame := Exec.along_comap Processor.state Prod.fst hstate ls (.start config pageSize files r)
    (State.along_tame (W := W) _ _ (State.start_wf config pageSize files) hjoin (by
      show (State.start config pageSize files).core.issued + _ < _
      rw [State.start_core, Nat.zero_add]
      exact hcreates))
  have hstart := Processor.start_mirrors config pageSize files r
  have hqueues := (Kernel.start_kernel config pageSize files).2
  obtain ⟨hbut, hall⟩ := Processor.start_restored config pageSize files r
  constructor
  · refine Exec.always_mono (fun q hq => hq.2.2) _ _ (Exec.always_inv
      (I := fun q : Processor => q.state.core.QueuesWf ∧ q.Mirrors ∧ q.RestoredButMainFpu)
      (fun q l q' hI ht hq' => ?_) ls _ ⟨hqueues, hstart, hbut⟩ htame)
    obtain ⟨t, hstep, rfl⟩ := Processor.step_some hq'
    have hs := hI.2.1.switched hI.1 ht hstep
    exact ⟨Kernel.queuesWf_step q.state l.1 t hI.1 ht hstep, hs.mirrors, hs.butFpu⟩
  · refine Exec.always_iff_along
      (I := fun ls (q : Processor) => Exec.Along (Processor.step W)
        (fun q l => State.Tame W q.state l.1) q ls ∧
          q.state.core.QueuesWf ∧ q.Mirrors ∧ q.Restored)
      (fun l ls q q' hI hG hq' => ?_) (fun _ _ hI => hI.2.2.2) (fun l ls q q' hI hq' hres => ?_)
      ls _ p ⟨htame, hqueues, hstart, hall⟩ hrun
    · have hnext := hI.1.2 q' hq'
      obtain ⟨t, hstep, rfl⟩ := Processor.step_some hq'
      have hs := hI.2.2.1.switched hI.2.1 hI.1.1 hstep
      exact ⟨hnext, Kernel.queuesWf_step q.state l.1 t hI.2.1 hI.1.1 hstep, hs.mirrors,
        hs.restored.mpr (hG t hstep)⟩
    · obtain ⟨t, hstep, rfl⟩ := Processor.step_some hq'
      have hs := hI.2.2.1.switched hI.2.1 hI.1.1 hstep
      intro t' hstep'
      obtain rfl : t = t' := Option.some.inj (hstep.symm.trans hstep')
      exact hs.restored.mp hres

namespace Sample

/-- The registers that main uses, with the control words that a process starts with. -/
def mainRegisters : Registers := { gpr := { rbx := 7, rsp := 0x7000 }, fpu := ⟨0x37F, 0x1F80⟩ }

/-- The registers of a thread that has set its rounding mode to `mxcsr`. -/
def greenRegisters (mxcsr : BitVec 32) : Registers :=
  { gpr := { r12 := 3, rsp := 0x9000 }, fpu := ⟨0x37F, mxcsr⟩ }

/-- Main creates a thread and yields, and the thread yields back. -/
def yieldBack (mxcsr : BitVec 32) : List (Label × Registers) :=
  [(main create, mainRegisters), (main .yield, mainRegisters), (.tau, mainRegisters),
    (.tau, greenRegisters mxcsr), (green 0 .yield, greenRegisters mxcsr)]

end Sample

/-- A thread that keeps the control words. -/
theorem callee_saved_restored_same :
    Exec.Always (Processor.step Sample.world) Processor.Restored
      (.start Sample.config 4096#64 (fun _ => none) Sample.mainRegisters)
      (Sample.yieldBack 0x1F80) := by
  obtain ⟨p, hp⟩ := Option.isSome_iff_exists.mp (show (Exec.exec (Processor.step Sample.world)
    (.start Sample.config 4096#64 (fun _ => none) Sample.mainRegisters)
    (Sample.yieldBack 0x1F80)).isSome = true by decide +kernel)
  exact (callee_saved_restored_iff Sample.world Sample.config 4096#64 (fun _ => none)
    Sample.mainRegisters _ p (by unfold JoinsFromMain; decide) (by decide) hp).2.mpr
    (by decide +kernel)

/-- **Main gets the rounding mode of a thread.** -/
theorem main_gets_rounding_mode_of_thread :
    (Exec.exec (Processor.step Sample.world)
      (.start Sample.config 4096#64 (fun _ => none) Sample.mainRegisters)
      (Sample.yieldBack 0x7F80)).map
        (fun p => (p.state.core.cpu, p.called .main, p.rip, p.regs, decide p.Restored)) =
    some (.swap (some ⟨.main, .runNext 0 0 .yield⟩), some Sample.mainRegisters, .resume,
      { Sample.mainRegisters with fpu.mxcsr := 0x7F80 }, false) := by
  decide +kernel

end Gth

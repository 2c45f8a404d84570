/-
  A restarted runtime behaves like a new process.

  `gth_runtime_shutdown` and the `memset` of `gth_runtime_init` leave three things from earlier
  sessions of a process behind: the files, the page size, and the objects in user memory, which may
  be locked mutexes and queues full of slots of threads that no longer exist.  None of it matters to a
  program that initialises every object before it uses it: its session runs as it would in a process
  that has just been loaded.

  1. `step_graft`: one step, from the segments of `Gthreads.UserMemory`.
  2. `exec_graft`: a run, by induction on its labels, with the set of objects that are not
     initialised yet shrinking along.
  3. `restart_is_fresh`: the state `gth_runtime_init` leaves is that of a new process with the old
     objects grafted on.
-/
import Gthreads.Process
import Gthreads.Slots
import Gthreads.UserMemory

namespace Gth

/-- Every object of `A` is initialised before it is used. -/
def InitFirst : Raw → List Label → Prop
  | _, [] => True
  | A, l :: ls => l.Off A ∧ InitFirst (l.claim A) ls

instance decidableCallOff (A : Raw) (c : Call) : Decidable (c.Off A) :=
  inferInstanceAs (Decidable (∀ o ∈ c.uses, o.addr ≠ 0 → A o = false))

instance decidableLabelOff (A : Raw) : ∀ l : Label, Decidable (l.Off A)
  | .call _ c => inferInstanceAs (Decidable (c.Off A))
  | .sub _ _ => isTrue trivial
  | .tau => isTrue trivial

instance decidableInitFirst : ∀ (A : Raw) (ls : List Label), Decidable (InitFirst A ls)
  | _, [] => isTrue trivial
  | A, l :: ls =>
    have := decidableInitFirst (l.claim A) ls
    inferInstanceAs (Decidable (_ ∧ _))

/-- What the run leaves of `A`. -/
def unclaimed (A : Raw) (ls : List Label) : Raw := ls.foldl Label.claim A

/-- No object is initialised. -/
def Raw.all : Raw := fun _ => true

namespace State
variable {W : World} {A : Raw} {o : Core} {s : State} {l : Label}

/-- The state with the objects in `A` as they are in `o`. -/
def graft (s : State) (A : Raw) (o : Core) : State := { s with core := s.core.graft A o }

/-! ## Steps -/

/-- **One step** that works on no object of `A` does the same whatever is in `A`. -/
theorem step_graft (hs : s.core.Clear A) (hl : l.Off A) :
    step W (s.graft A o) l = (step W s l).map fun t => t.graft (l.claim A) o := by
  cases l with
  | call x c =>
    have hexec : (s.graft A o).fresh.exec x c = (s.fresh.exec x c).graft (c.claim A) o :=
      Core.exec_graft (s := s.fresh) hl
    by_cases hx : s.core.cpu = .user x ∧ callable x c = true
    · rw [step_call (s := s.graft A o) hx.1 hx.2, step_call hx.1 hx.2, hexec]
      rfl
    · rw [step, step, if_neg hx]
      exact if_neg hx
  | sub x c =>
    by_cases hx : s.core.cpu = .user x
    · rw [step, step, if_pos hx]
      exact if_pos hx
    · rw [step, step, if_neg hx]
      exact if_neg hx
  | tau =>
    unfold step
    have hcpu : (s.graft A o).core.cpu = s.core.cpu := rfl
    rw [hcpu]
    cases hc : s.core.cpu with
    | user x => rfl
    | sched x caller =>
      show Option.map _ (s.sub.pickReadyThreadMode W s.core.config.policy s.core.threads) = _
      dsimp only
      rw [Option.map_map]
      refine congrArg (fun f => Option.map f _) (funext fun p => ?_)
      have hnext : (s.graft A o).fresh.runNext x caller p.1
          = (s.fresh.runNext x caller p.1).graft A o := Core.runNext_graft (s := s.fresh) caller p.1
      show State.settle W _ _ = State.graft _ A o
      rw [hnext]
      rfl
    | swap k =>
      cases k with
      | none => rfl
      | some k =>
        have hresume : (s.graft A o).fresh.resume k = (s.fresh.resume k).graft A o :=
          Core.resume_graft (s := s.fresh) (hs.loaded k hc)
        show some (State.settle W _ _) = some (State.graft _ A o)
        rw [hresume]
        rfl

/-! ## Runs -/

/-- **A run** that initialises the objects of `A` before it uses them does the same whatever is in
    them, and leaves alone those it does not initialise. -/
theorem exec_graft (ls : List Label) : ∀ (A : Raw) (s : State), s.core.Clear A → InitFirst A ls →
    Exec.exec (step W) (s.graft A o) ls
      = (Exec.exec (step W) s ls).map fun t => t.graft (unclaimed A ls) o := by
  induction ls with
  | nil => exact fun A s _ _ => rfl
  | cons l ls ih =>
    intro A s hs hfirst
    obtain ⟨hl, hrest⟩ := hfirst
    show (step W (s.graft A o) l).bind _ = Option.map _ ((step W s l).bind _)
    rw [step_graft hs hl]
    cases hstep : step W s l with
    | none => rfl
    | some t => exact ih (l.claim A) t (step_clear hs hl hstep) hrest

end State

/-! ## Restart -/

/-- What `gth_runtime_init` leaves. -/
theorem runtimeInit_off {s : State} (hoff : s.core.initialized = false) (config : ValidConfig) :
    (runtimeInit s (some config.1)).2 =
      { core :=
          { config := config.1, pageSize := s.core.pageSize, initialized := true, nextTid := 1,
            mutexes := s.core.mutexes, sems := s.core.sems, conds := s.core.conds }
        sub := { lastRrSlot := 127, files := s.sub.files, calls := s.sub.calls } } := by
  have hvalid : ¬ configIsValid config.1 = false := by
    rw [config.2]
    exact Bool.false_ne_true.symm
  have hinit : ¬ s.core.initialized = true := by
    rw [hoff]
    exact Bool.false_ne_true
  unfold runtimeInit
  dsimp only
  rw [if_neg hvalid, if_neg hinit]

/-- A new process starts the runtime, in a world with these files that has answered `calls` calls. -/
def State.startIn (config : ValidConfig) (pageSize : BitVec 64)
    (files : Path → Option (List UInt8)) (calls : Nat) : State :=
  let loaded := State.loaded config.1 pageSize files
  (runtimeInit { loaded with sub := { loaded.sub with calls := calls } } (some config.1)).2

theorem State.startIn_clear (config : ValidConfig) (pageSize : BitVec 64)
    (files : Path → Option (List UInt8)) (calls : Nat) (A : Raw) :
    (State.startIn config pageSize files calls).core.Clear A := by
  rw [State.startIn, runtimeInit_off rfl config]
  constructor
  · intro i k hk
    cases hk
  · intro k hk
    cases hk
  · intro k hk
    cases hk

/-- `gth_runtime_init` in a process that has shut the runtime down. -/
theorem runtimeInit_graft {s : State} (hoff : s.core.initialized = false) (config : ValidConfig) :
    (runtimeInit s (some config.1)).2
      = (State.startIn config s.core.pageSize s.sub.files s.sub.calls).graft Raw.all s.core := by
  rw [State.startIn, runtimeInit_off hoff config, runtimeInit_off rfl config]
  rfl

/-- The page size is cached for good. -/
theorem Process.pageSize_eq {W : World} {p q : Process} {l : ProcessLabel}
    (h : Process.step W p l = some q) : q.state.core.pageSize = p.state.core.pageSize := by
  cases l with
  | init config =>
    obtain ⟨-, hq⟩ := Option.ite_none_right_eq_some.mp h
    cases hq
    unfold runtimeInit
    cases config with
    | none => rfl
    | some config =>
      dsimp only
      split
      · rfl
      · split <;> rfl
  | shutdown =>
    obtain ⟨-, hq⟩ := Option.ite_none_right_eq_some.mp h
    cases hq
    unfold runtimeShutdown
    split <;> rfl
  | run l =>
    obtain ⟨t, ht, rfl⟩ := Option.map_eq_some_iff.mp h
    exact congrArg (fun p => p.2.2) (State.step_settings ht)

/-- **A restarted runtime behaves like a new process.**  After any sessions, whatever they did and
    however they ended, a session that initialises its objects before it uses them runs exactly as
    in a process that has just been loaded and finds the same files: the same calls are possible and
    return the same, the same threads are picked, the same events are recorded.  The only difference
    is in objects the session has not initialised, which it has left as they were. -/
theorem restart_is_fresh (W : World) (config : Config) (pageSize : BitVec 64)
    (files : Path → Option (List UInt8)) (ps : List ProcessLabel) (p : Process)
    (hrun : Exec.exec (Process.step W) ⟨State.loaded config pageSize files, []⟩ ps = some p)
    (hoff : p.state.core.initialized = false) (config' : ValidConfig) (ls : List Label)
    (hfirst : InitFirst Raw.all ls) :
    Exec.exec (State.step W) (runtimeInit p.state (some config'.1)).2 ls
      = (Exec.exec (State.step W)
          (State.startIn config' pageSize p.state.sub.files p.state.sub.calls) ls).map
        fun t => t.graft (unclaimed Raw.all ls) p.state.core := by
  have hpage : p.state.core.pageSize = pageSize :=
    Exec.exec_inv (G := fun _ _ => True) (I := fun q : Process => q.state.core.pageSize = pageSize)
      (fun q l r hq _ hr => (Process.pageSize_eq hr).trans hq) ps _ p rfl
      (Exec.along_of_forall ps _ fun _ _ _ => trivial) hrun
  rw [runtimeInit_graft hoff config', hpage]
  exact State.exec_graft ls Raw.all _ (State.startIn_clear _ _ _ _ _) hfirst

namespace Sample

/-- A thread locks the mutex at 1 and is still suspended when main shuts the runtime down. -/
def abandon : List ProcessLabel :=
  [.init (some config.1), .run (main (.mutexInit 1)), .run (main create), .run (main .yield),
    .run .tau, .run .tau, .run (green 0 (.mutexLock 1)), .run (green 0 .yield), .run .tau, .shutdown]

/-- Main initialises the mutex at 1 once more, and a new thread locks it. -/
def again : List Label :=
  [main (.mutexInit 1), main create, main .yield, .tau, .tau, green 0 (.mutexLock 1)]

end Sample

theorem restart_is_fresh_abandon :
    ∃ p, Exec.exec (Process.step Sample.world)
        ⟨State.loaded Sample.config.1 4096#64 fun _ => none, []⟩ Sample.abandon = some p ∧
      (p.state.core.mutexes 1).locked = 1 ∧
      Exec.exec (State.step Sample.world) (runtimeInit p.state (some Sample.config.1)).2 Sample.again
        = (Exec.exec (State.step Sample.world)
            (State.startIn Sample.config 4096#64 p.state.sub.files p.state.sub.calls)
            Sample.again).map
          fun t => t.graft (unclaimed Raw.all Sample.again) p.state.core := by
  have hrun : ∃ p, Exec.exec (Process.step Sample.world)
      ⟨State.loaded Sample.config.1 4096#64 fun _ => none, []⟩ Sample.abandon = some p ∧
      (p.state.core.mutexes 1).locked = 1 ∧ p.state.core.initialized = false := ⟨_, rfl, rfl, rfl⟩
  obtain ⟨p, hp, hlocked, hoff⟩ := hrun
  exact ⟨p, hp, hlocked, restart_is_fresh Sample.world Sample.config.1 4096#64 (fun _ => none)
    Sample.abandon p hp hoff Sample.config Sample.again (by decide)⟩

end Gth

/-
  The runtime gives back what it obtained.

  A process starts and stops the runtime as often as it likes and uses it in between; its ledger is
  the list of all calls that obtained a resource or gave one back.  At any moment the ledger adds up
  to what the runtime state points to: nothing is given back twice, nothing that is held is out of
  reach, and while the runtime is not initialised nothing is held.
-/
import Gthreads.Accounts

namespace Gth
open Ledger (Settles)

namespace State
variable {W : World} {s : State}

/-- What holds between calls: a free slot has no stack, a trace without file has no buffer, and a
    runtime that is not initialised has nothing. -/
structure Tidy (s : State) : Prop where
  vacant : s.core.Vacant
  trace : s.sub.TraceOk
  off : s.core.initialized = false → s.core.Bare ∧ s.sub.held = 0

theorem held_of_bare (hcore : s.core.Bare) (hsub : s.sub.held = 0) : s.held = 0 := by
  rw [State.held, hcore.held_eq, hsub]
  rfl

theorem Tidy.held_eq (h : s.Tidy) (hoff : s.core.initialized = false) : s.held = 0 :=
  held_of_bare (h.off hoff).1 (h.off hoff).2

/-- A runtime that is not initialised obtains nothing. -/
theorem subExecOps_off (hoff : s.core.initialized = false) (c : SubCall) : s.subExecOps W c = [] := by
  cases c with
  | traceFlush => rfl
  | fuzzSetRate rate => rfl
  | _ => exact if_pos hoff

/-- A code segment: what its core does, and then the instrumentation calls. -/
theorem Tidy.segment (h : s.Tidy) {core : Core} {ops : Ops}
    (hops : Settles s.core.held ops core.held) (hvacant : core.Vacant)
    (hinit : core.initialized = s.core.initialized)
    (hbare : s.core.initialized = false → core.Bare) :
    Settles s.held ops (s.settle W core).held ∧ (s.settle W core).Tidy := by
  obtain ⟨hsub, htrace⟩ := settle_balances (W := W) h.trace core
  constructor
  · have hall := (hops.frame s.sub.held).append (hsub.frame_left core.held)
    rw [List.append_nil] at hall
    exact hall
  · refine ⟨hvacant, htrace, fun hoff => ?_⟩
    have hoff' : s.core.initialized = false := hinit ▸ hoff
    exact ⟨hbare hoff', hsub.eq_of_nil ▸ (h.off hoff').2⟩

/-- **One step of the program.** -/
theorem Tidy.step (h : s.Tidy) {l : Label} (hnull : ∀ x c, l = .call x c → c.mapsNull = false)
    {t : State} (hstep : State.step W s l = some t) :
    Settles s.held (s.stepOps W l) t.held ∧ t.Tidy := by
  rcases State.step_cases hstep with ⟨x, c, rfl, -, rfl⟩ | ⟨x, c, rfl, -, -, rfl⟩ |
      ⟨x, caller, pick, sub, rfl, hcpu, hp, rfl⟩ | ⟨k, rfl, hcpu, rfl⟩
  · obtain ⟨hops, htrace⟩ := subExec_balances (W := W) h.trace c
    refine ⟨hops.frame_left _, h.vacant, htrace, fun hoff => ⟨(h.off hoff).1, ?_⟩⟩
    rw [subExecOps_off (s := s) hoff] at hops
    exact hops.eq_of_nil ▸ (h.off hoff).2
  · obtain ⟨hops, hvacant⟩ := Core.exec_balances (s := s.fresh) h.vacant x (hnull x c rfl)
    exact h.segment hops hvacant (congrArg Prod.fst (Core.exec_settings _ x c)) fun hoff =>
      Core.Bare.exec (s := s.fresh) (h.off hoff).1 hoff x c
  · have hhoused := s.fresh.runNext_housed x caller pick
    obtain ⟨hsub, htrace⟩ := pick_balances h.trace hp
    have hpicked : Tidy { s with sub := sub } :=
      ⟨h.vacant, htrace, fun hoff => ⟨(h.off hoff).1, hsub.eq_of_nil ▸ (h.off hoff).2⟩⟩
    have hheld : s.held = State.held { s with sub := sub } :=
      congrArg (s.core.held + ·) hsub.eq_of_nil
    have hops : s.stepOps W .tau = [] := by
      unfold stepOps
      rw [hcpu]
    rw [hops, hheld]
    exact hpicked.segment (.of_eq (Core.held_of_housed hhoused))
      (Core.Vacant.of_housed (s := s.fresh) h.vacant hhoused)
      (congrArg Prod.fst (Core.runNext_settings _ x caller pick))
      fun hoff => Core.Bare.of_housed (s := s.fresh) (h.off hoff).1 hhoused
  · have hops : s.stepOps W .tau = s.fresh.resumeOps k := by
      unfold stepOps
      rw [hcpu]
    rw [hops]
    exact h.segment (s.fresh.resume_balances k) (Core.Vacant.resume (s := s.fresh) h.vacant k)
      (congrArg Prod.fst (s.fresh.resume_fixed k)) fun hoff =>
        Core.Bare.resume (s := s.fresh) (h.off hoff).1 k

/-- `gth_runtime_init` obtains nothing. -/
theorem Tidy.init (h : s.Tidy) (config : Option Config) :
    Settles s.held [] (runtimeInit s config).2.held ∧ (runtimeInit s config).2.Tidy := by
  unfold runtimeInit
  cases config with
  | none => exact ⟨.nil _, h⟩
  | some config =>
    dsimp only
    split
    · exact ⟨.nil _, h⟩
    · split
      · exact ⟨.nil _, h⟩
      · rename_i hinit
        -- it starts from a runtime that has nothing
        have hoff : s.core.initialized = false := Bool.not_eq_true _ ▸ hinit
        rw [h.held_eq hoff]
        refine ⟨.of_eq (held_of_bare (fun _ => rfl) rfl).symm, fun _ _ => rfl, ?_, ?_⟩
        · intro tr htr
          cases htr
        · intro hoff
          cases hoff

/-- The stacks of all slots. -/
theorem stacks_balance (core : Core) : Settles core.held
    ((List.finRange 128).flatMap fun i => stackFreeOps (core.threads i).stack) 0 := by
  rw [Core.held, Fin.sum_univ_def]
  exact Settles.flatMap (fun i => (core.threads i).stack.free_balances) (List.finRange 128)

/-- `gth_runtime_shutdown` gives everything back. -/
theorem Tidy.shutdown (h : s.Tidy) :
    Settles s.held (s.shutdownOps W) (runtimeShutdown W s).2.held ∧
      (runtimeShutdown W s).2.Tidy := by
  by_cases hoff : s.core.initialized = false
  · rw [shutdownOps, runtimeShutdown, if_pos hoff, if_pos hoff]
    exact ⟨.nil _, h⟩
  have hafter : (runtimeShutdown W s).2.held = 0 ∧ (runtimeShutdown W s).2.Tidy := by
    rw [runtimeShutdown, if_neg hoff]
    exact ⟨held_of_bare (fun _ => rfl) rfl, fun _ _ => rfl, nofun, fun _ => ⟨fun _ => rfl, rfl⟩⟩
  refine ⟨?_, hafter.2⟩
  rw [hafter.1, shutdownOps, if_neg hoff]
  dsimp only
  -- after the three cleanups the subsystems hold nothing
  obtain ⟨htrace, hv⟩ := Sub.traceCleanup_if (W := W) (s.sub.trace ≠ none) h.trace
  have hvtrace : (if s.sub.trace ≠ none then s.sub.traceCleanup W else s.sub).trace = none := by
    split
    · exact Sub.traceCleanup_trace W s.sub
    · rename_i hnone
      exact not_not.mp hnone
  generalize (if s.sub.trace ≠ none then s.sub.traceCleanup W else s.sub) = v at htrace hv hvtrace
  obtain ⟨hreplay, hw⟩ := Sub.replayCleanup_if (v.replay ≠ none) hv
  have hwnone : (if v.replay ≠ none then v.replayCleanup else v) = { v with replay := none } := by
    split
    · rfl
    · rename_i hnone
      rw [← not_not.mp hnone]
  rw [hwnone] at hreplay hw ⊢
  obtain ⟨hfuzz, -⟩ := Sub.fuzzCleanup_if (v.fuzz ≠ none) hw
  have hznone : (if v.fuzz ≠ none then Sub.fuzzCleanup { v with replay := none }
      else { v with replay := none }) = { v with replay := none, fuzz := none } := by
    split
    · rfl
    · rename_i hnone
      rw [← not_not.mp hnone]
  rw [hznone] at hfuzz
  have hempty : Sub.held { v with replay := none, fuzz := none } = 0 := by
    unfold Sub.held
    rw [hvtrace]
    rfl
  rw [hempty] at hfuzz
  have hsub := ((htrace.append hreplay).append hfuzz).frame_left s.core.held
  rw [add_zero] at hsub
  exact hsub.append (stacks_balance s.core)

end State

/-- The state of the program and the ledger. -/
structure Process where
  state : State
  ops : Ops := []

/-- A process starts and stops the runtime and runs the program in between. -/
inductive ProcessLabel where
  | init (config : Option Config)
  | shutdown
  | run (l : Label)

/-- The kernel maps memory at address 0. -/
def ProcessLabel.mapsNull : ProcessLabel → Bool
  | .run (.call _ c) => c.mapsNull
  | _ => false

/-- One step of a process.  Main starts and stops the runtime: a thread that called
    `gth_runtime_shutdown` would return to a stack that is no longer mapped. -/
def Process.step (W : World) (p : Process) : ProcessLabel → Option Process
  | .init config =>
    if p.state.core.cpu = .user .main then some ⟨(runtimeInit p.state config).2, p.ops⟩ else none
  | .shutdown =>
    if p.state.core.cpu = .user .main then
      some ⟨(runtimeShutdown W p.state).2, p.ops ++ p.state.shutdownOps W⟩
    else none
  | .run l => (State.step W p.state l).map fun t => ⟨t, p.ops ++ p.state.stepOps W l⟩

/-- **The runtime gives back what it obtained.**  For every process, whatever fails, and whoever
    joins: the calls of `mmap`, `malloc`, `fopen` and their counterparts add up to what the runtime
    state points to.  No mapping, block or file is given back that is not held, none is lost, and
    while the runtime is not initialised nothing is held. -/
theorem resources_balanced (W : World) (config : Config) (pageSize : BitVec 64)
    (files : Path → Option (List UInt8)) (ls : List ProcessLabel) (p : Process)
    (hrun : Exec.exec (Process.step W) ⟨State.loaded config pageSize files, []⟩ ls = some p)
    (hnull : ∀ l ∈ ls, l.mapsNull = false) :
    Exec.exec Ledger.post 0 p.ops = some p.state.held ∧
      (p.state.core.initialized = false → p.state.held = 0) := by
  have hinv := Exec.exec_inv (G := fun _ l => l.mapsNull = false)
    (I := fun p : Process => Settles 0 p.ops p.state.held ∧ p.state.Tidy)
    (fun p l q hp hl hq => ?_) ls _ p ?_ (Exec.along_of_forall ls _ fun l hl _ => hnull l hl) hrun
  · exact ⟨hinv.1.exec, hinv.2.held_eq⟩
  · obtain ⟨hops, htidy⟩ := hp
    cases l with
    | init config =>
      obtain ⟨-, hq⟩ := Option.ite_none_right_eq_some.mp hq
      cases hq
      obtain ⟨hinit, htidy'⟩ := htidy.init config
      exact ⟨hinit.eq_of_nil ▸ hops, htidy'⟩
    | shutdown =>
      obtain ⟨-, hq⟩ := Option.ite_none_right_eq_some.mp hq
      cases hq
      obtain ⟨hshut, htidy'⟩ := htidy.shutdown (W := W)
      exact ⟨hops.append hshut, htidy'⟩
    | run l =>
      obtain ⟨t, ht, rfl⟩ := Option.map_eq_some_iff.mp hq
      obtain ⟨hstep, htidy'⟩ := htidy.step (fun x c hlc => by subst hlc; exact hl) ht
      exact ⟨hops.append hstep, htidy'⟩
  · have hempty : (State.loaded config pageSize files).held = 0 :=
      State.held_of_bare (fun _ => rfl) rfl
    exact ⟨hempty ▸ .nil _, fun _ _ => rfl, nofun, fun _ => ⟨fun _ => rfl, rfl⟩⟩

namespace Sample

/-- Main starts the runtime, creates a thread, records, fuzzes, and shuts the runtime down. -/
def session : List ProcessLabel :=
  [.init (some config.1), .run (main create), .run (.sub .main (.traceStart (some [1]))),
    .run (.sub .main (.setMode .fuzz)), .shutdown]

end Sample

theorem resources_balanced_session :
    ∃ p, Exec.exec (Process.step Sample.world)
        ⟨State.loaded Sample.config.1 4096#64 fun _ => none, []⟩ Sample.session = some p ∧
      p.ops.length = 12 ∧ Exec.exec Ledger.post 0 p.ops = some 0 := by
  have hrun : ∃ p, Exec.exec (Process.step Sample.world)
      ⟨State.loaded Sample.config.1 4096#64 fun _ => none, []⟩ Sample.session = some p ∧
      p.ops.length = 12 ∧ p.state.core.initialized = false := ⟨_, rfl, rfl, rfl⟩
  obtain ⟨p, hp, hlen, hoff⟩ := hrun
  obtain ⟨hops, hempty⟩ := resources_balanced Sample.world Sample.config.1 4096#64 (fun _ => none)
    Sample.session p hp (by decide)
  exact ⟨p, hp, hlen, hempty hoff ▸ hops⟩

end Gth

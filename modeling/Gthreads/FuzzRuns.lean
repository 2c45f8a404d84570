/-
  Fuzzing permutes schedules.

  In `FUZZ` mode the policy makes its choice as in `NORMAL` mode, `last_rr_slot` included, and the
  fuzzer may exchange it.  So a run in `FUZZ` mode goes together with the run of the same program in
  `NORMAL` mode until the fuzzer exchanges something: the two have equal cores and an equal
  `last_rr_slot` (`Alike`), and `Exec.drive_lockstep` takes that from one step to the run.
-/
import Gthreads.SideBySide

namespace Gth

/-! ## `FUZZ` mode has a fuzzer -/

namespace Sub
variable {W : World} {u v : Sub}

/-- There is fuzz state in `FUZZ` mode. -/
def Armed (u : Sub) : Prop := u.mode = .fuzz → u.fuzz ≠ none

theorem armed_congr (h : v.frame = u.frame) (hu : u.Armed) : v.Armed := by
  obtain ⟨hcontrol, -⟩ := Prod.mk.inj h
  obtain ⟨hmode, hrest⟩ := Prod.mk.inj hcontrol
  obtain ⟨-, hfuzz⟩ := Prod.mk.inj hrest
  intro hm
  rw [hfuzz]
  exact hu (hmode.symm.trans hm)

/-- **A change of mode** keeps `last_rr_slot` and does not go to `FUZZ` without fuzz state. -/
theorem schedulerSetMode_armed (initialized : Bool) (config : Config) (mode : Mode) :
    (u.schedulerSetMode W initialized config mode).2.lastRrSlot = u.lastRrSlot ∧
      (u.Armed → (u.schedulerSetMode W initialized config mode).2.Armed) := by
  cases initialized with
  | false => exact ⟨rfl, id⟩
  | true =>
    have hslot : (u.leaveMode W).lastRrSlot = u.lastRrSlot :=
      congrArg Prod.snd (leaveMode_frame W u)
    rw [schedulerSetMode_eq]
    cases mode with
    | normal => exact ⟨hslot, fun _ => nofun⟩
    | replay => exact ⟨hslot, fun _ => nofun⟩
    | record =>
      have hinit := frame_traceInit W { u.leaveMode W with mode := .record } true
      have hslot' := (congrArg Prod.snd hinit).trans hslot
      dsimp only
      split
      · exact ⟨hslot', fun _ => nofun⟩
      · exact ⟨hslot', fun _ => armed_congr hinit nofun⟩
    | fuzz =>
      dsimp only
      by_cases hf : (u.leaveMode W).fuzz = none
      · rw [fuzzInit_none (u := { u.leaveMode W with mode := .fuzz }) hf]
        dsimp only
        cases (W.answer (u.leaveMode W).calls).ok with
        | false => exact ⟨hslot, fun _ => nofun⟩
        | true => exact ⟨hslot, fun _ _ => nofun⟩
      · have hbusy : ∀ seed, fuzzInit W { u.leaveMode W with mode := .fuzz } true seed
            = (.estate, { u.leaveMode W with mode := .fuzz }) := fun seed => if_pos hf
        rw [hbusy]
        exact ⟨hslot, fun _ => nofun⟩

theorem replayFrom_armed (initialized : Bool) (path : Option Path) :
    (u.replayFrom W initialized path).2.lastRrSlot = u.lastRrSlot ∧
      (u.Armed → (u.replayFrom W initialized path).2.Armed) := by
  unfold replayFrom
  rcases replayInit_cases W u initialized path with ⟨hst, hframe⟩ | ⟨hst, -, -, -, -, hslot⟩
  · generalize u.replayInit W initialized path = r at hst hframe ⊢
    obtain ⟨st, v⟩ := r
    have hv : v.lastRrSlot = u.lastRrSlot ∧ (u.Armed → v.Armed) :=
      ⟨congrArg Prod.snd hframe, armed_congr hframe⟩
    cases st <;> first | exact hv | exact absurd rfl hst
  · generalize u.replayInit W initialized path = r at hst hslot ⊢
    obtain ⟨st, v⟩ := r
    obtain rfl : st = .ok := hst
    exact ⟨hslot, fun _ => nofun⟩

theorem fuzzSetRate_armed (initialized : Bool) (rate : Nat) :
    (u.fuzzSetRate initialized rate).2.lastRrSlot = u.lastRrSlot ∧
      (u.Armed → (u.fuzzSetRate initialized rate).2.Armed) := by
  unfold fuzzSetRate
  split
  · exact ⟨rfl, id⟩
  · split
    · exact ⟨rfl, id⟩
    · split
      · exact ⟨rfl, id⟩
      · exact ⟨rfl, fun _ _ => nofun⟩

/-- A pick goes from fuzz state to fuzz state. -/
theorem pickReadyThreadMode_armed {policy : Policy} {threads : Slot → ThreadRecord}
    {pick : Option Slot} (hu : u.Armed)
    (h : u.pickReadyThreadMode W policy threads = some (pick, v)) : v.Armed := by
  rcases pickReadyThreadMode_cases h with ⟨r, -, -, -, rfl⟩ | ⟨f, f', -, -, -, rfl⟩ | ⟨-, -, heq⟩
  · exact hu
  · exact fun _ => nofun
  · obtain rfl : v = (u.pickReadyThread policy threads).2 := congrArg Prod.snd heq
    rw [pickReadyThread_sub]
    exact hu

end Sub

namespace State
variable {W : World} {s t : State}

/-- **A call of the mode and trace interface.** -/
theorem subExec_armed (s : State) (c : SubCall) :
    (s.subExec W c).2.lastRrSlot = s.sub.lastRrSlot ∧
      (s.sub.Armed → (s.subExec W c).2.Armed) := by
  have hframe : ∀ u : Sub, u.frame = s.sub.frame →
      u.lastRrSlot = s.sub.lastRrSlot ∧ (s.sub.Armed → u.Armed) :=
    fun u hu => ⟨congrArg Prod.snd hu, Sub.armed_congr hu⟩
  cases c with
  | setMode mode => exact Sub.schedulerSetMode_armed s.core.initialized s.core.config mode
  | traceStart path => exact hframe _ (Sub.frame_traceStart W s.sub s.core.initialized path)
  | traceStop => exact hframe _ (Sub.frame_traceStop W s.sub s.core.initialized)
  | traceFlush => exact hframe _ (Sub.frame_traceFlush W s.sub)
  | replayFrom path => exact Sub.replayFrom_armed s.core.initialized path
  | fuzzSetRate rate => exact Sub.fuzzSetRate_armed s.core.initialized rate

theorem step_armed {l : Label} (hs : s.sub.Armed) (h : step W s l = some t) : t.sub.Armed := by
  rcases step_cases h with ⟨x, c, -, -, rfl⟩ | ⟨x, c, -, -, -, rfl⟩ |
      ⟨x, caller, pick, sub, -, -, hpick, rfl⟩ | ⟨k, -, -, rfl⟩
  · exact (subExec_armed s c).2 hs
  · exact Sub.armed_congr (s.settle_frame _) hs
  · exact Sub.armed_congr (settle_frame { s with sub := sub } _)
      (Sub.pickReadyThreadMode_armed hs hpick)
  · exact Sub.armed_congr (s.settle_frame _) hs

/-- **In every run, `FUZZ` mode has a fuzzer.** -/
theorem exec_armed {config : ValidConfig} {pageSize : BitVec 64}
    {files : Path → Option (List UInt8)} {ls : List Label}
    (hrun : Exec.exec (step W) (State.start config pageSize files) ls = some s) : s.sub.Armed := by
  refine Exec.exec_induct (P := fun _ t => t.sub.Armed) ?_
    (fun _ _ _ _ _ ih hstep => step_armed ih hstep) ls s hrun
  show (runtimeInit (State.loaded config.1 pageSize files) (some config.1)).2.sub.Armed
  unfold runtimeInit
  dsimp only
  rw [if_neg (by rw [config.2]; decide)]
  exact nofun

end State

/-! ## Picks -/

section
variable {W : World} {u u' : Sub} {policy : Policy} {threads : Slot → ThreadRecord}
  {pick : Option Slot} {f : FuzzState}

/-- **A pick in `FUZZ` mode**: a `READY` thread if there is one, and then one decision more. -/
theorem fuzz_pick_spec (hmode : u.mode = .fuzz) (hf : u.fuzz = some f)
    (h : u.pickReadyThreadMode W policy threads = some (pick, u')) :
    (pick = none ↔ ∀ i, (threads i).state ≠ .ready) ∧
    (∀ i, pick = some i → (threads i).state = .ready) ∧
    ∃ f', u'.fuzz = some f' ∧
      f'.decisionCount = if pick = none then f.decisionCount else (f.decisionCount + 1) % 2 ^ 64 := by
  rw [pickReadyThreadMode_fuzz W policy hmode hf] at h
  obtain ⟨⟨p, f'⟩, hp, heq⟩ := Option.map_eq_some_iff.mp h
  obtain ⟨rfl, rfl⟩ := Prod.mk.inj heq
  have hchoice : ∀ j, (u.pickReadyThread policy threads).1 = some j → (threads j).state = .ready :=
    fun j hj => pickReadyThread_ready (Prod.ext hj rfl)
  rcases fuzzPickThread_spec hchoice hp with ⟨hnone, rfl, rfl⟩ | ⟨-, j, rfl, hready, hsettings⟩
  · refine ⟨iff_of_true rfl fun i => pickReadyThread_none hnone i, nofun, f', rfl, ?_⟩
    rw [if_pos rfl]
  · refine ⟨⟨nofun, fun hidle => absurd hready (hidle j)⟩, fun i hi => ?_, f', rfl, ?_⟩
    · exact Option.some.inj hi ▸ hready
    · rw [if_neg (Option.some_ne_none j)]
      exact congrArg Prod.fst hsettings

/-- The policy reads and writes `last_rr_slot`, nothing else of this state. -/
theorem pickReadyThread_congr {v : Sub} (policy : Policy) (threads : Slot → ThreadRecord)
    (h : v.lastRrSlot = u.lastRrSlot) :
    (v.pickReadyThread policy threads).1 = (u.pickReadyThread policy threads).1 ∧
      (v.pickReadyThread policy threads).2.lastRrSlot
        = (u.pickReadyThread policy threads).2.lastRrSlot := by
  unfold Sub.pickReadyThread
  cases policy with
  | priority => exact ⟨rfl, h⟩
  | rr =>
    dsimp only
    rw [h]
    cases pickRr threads u.lastRrSlot with
    | none => exact ⟨rfl, h⟩
    | some i => exact ⟨rfl, rfl⟩

/-- **A pick that the fuzzer leaves alone**: at rate 0 and in the first five decisions. -/
theorem fuzz_pick_calm (W : World) (policy : Policy) (hmode : u.mode = .fuzz)
    (hcalm : (∃ i, (threads i).state = .ready) → ∀ f, u.fuzz = some f →
      f.perturbationRate = 0 ∨ f.decisionCount < 5) :
    ∃ v, u.pickReadyThreadMode W policy threads = some ((u.pickReadyThread policy threads).1, v) ∧
      v.lastRrSlot = (u.pickReadyThread policy threads).2.lastRrSlot := by
  cases hf : u.fuzz with
  | none =>
    refine ⟨_, pickReadyThreadMode_policy W policy (fun hm => ?_) fun _ => hf, rfl⟩
    rw [hmode] at hm
    cases hm
  | some f =>
    rw [pickReadyThreadMode_fuzz W policy hmode hf]
    cases hchoice : (u.pickReadyThread policy threads).1 with
    | none => exact ⟨_, rfl, rfl⟩
    | some i =>
      have hready := pickReadyThread_ready (Prod.ext hchoice rfl)
      have hnever : f.shouldPerturb.1 = false := by
        refine FuzzState.shouldPerturb_never ((hcalm ⟨i, hready⟩ f hf).symm.imp_left fun hlt => ?_)
        show (f.decisionCount + 1) % 2 ^ 64 ≤ 5
        omega
      rw [fuzzPickThread_calm (Prod.ext hnever rfl)]
      exact ⟨_, rfl, rfl⟩

end

/-! ## Two runs -/

/-- The next pick, if one comes next and has something to choose from, is at rate 0 or among the
    first five decisions. -/
def State.Unperturbed (s : State) : Prop :=
  (∃ x caller, s.core.cpu = .sched x caller) → (∃ i, (s.core.threads i).state = .ready) →
    ∀ f, s.sub.fuzz = some f → f.perturbationRate = 0 ∨ f.decisionCount < 5

/-- **One step of both runs**, in `FUZZ` mode and in `NORMAL` mode: the policy makes the same
    choice from the same `last_rr_slot`, and the fuzzer leaves it alone. -/
theorem Alike.fuzz_step {W W' : World} {s s' : State} (h : Alike Sub.lastRrSlot s s')
    (hmode : s.sub.mode = .fuzz) (hcalm : s.Unperturbed) (hmode' : s'.sub.mode = .normal)
    (l : Label) :
    Option.Rel (Alike Sub.lastRrSlot) (State.step W s l) (State.step W' s' l) := by
  refine h.step (fun _ _ hframe => congrArg Prod.snd hframe) l (fun x c _ => ?_)
    fun x caller hcpu => ?_
  · have hs := (State.subExec_armed (W := W) s c).1
    have hs' := (State.subExec_armed (W := W') s' c).1
    exact hs'.trans (h.sub.trans hs.symm)
  · obtain ⟨v, hpick, hslot⟩ := fuzz_pick_calm W s.core.config.policy hmode
      (hcalm ⟨x, caller, hcpu⟩)
    obtain ⟨hsame, hslot'⟩ := pickReadyThread_congr s.core.config.policy s.core.threads h.sub
    have hpick' : s'.sub.pickReadyThreadMode W' s.core.config.policy s.core.threads
        = some (s'.sub.pickReadyThread s.core.config.policy s.core.threads) :=
      pickReadyThreadMode_policy W' _ (fun hm => nomatch hmode'.symm.trans hm)
        fun hm => nomatch hmode'.symm.trans hm
    rw [hpick, hpick']
    exact .some ⟨hsame, hslot'.trans hslot.symm⟩

/-- The run of a program, which may look at the whole core and make any call.  The result is what
    has happened: the state of the runtime and all events, the dispatches among them. -/
def State.history (W : World) (program : Core → Label) (n : Nat) (S : State) :
    Option (Core × List Event) :=
  (Exec.drive (State.step W) (fun s => program s.core) n S).map fun s => (s.core, s.emitted)

/-- **Fuzzing only permutes legal schedules.** -/
theorem fuzzing_permutes_schedules (W W' : World) :
    (∀ (config : ValidConfig) (pageSize : BitVec 64) (files : Path → Option (List UInt8))
      (ls : List Label) (s : State),
      Exec.exec (State.step W) (State.start config pageSize files) ls = some s →
      s.sub.mode = .fuzz → ∃ f, s.sub.fuzz = some f ∧
        ∀ (policy : Policy) (threads : Slot → ThreadRecord) (pick : Option Slot) (u : Sub),
          s.sub.pickReadyThreadMode W policy threads = some (pick, u) →
          (pick = none ↔ ∀ i, (threads i).state ≠ .ready) ∧
          (∀ i, pick = some i → (threads i).state = .ready) ∧
          ∃ f', u.fuzz = some f' ∧ f'.decisionCount
            = if pick = none then f.decisionCount else (f.decisionCount + 1) % 2 ^ 64) ∧
    ∀ (program : Core → Label) (S S' : State) (n : Nat),
      S'.core = S.core → S'.emitted = S.emitted → S'.sub.lastRrSlot = S.sub.lastRrSlot →
      (∀ m < n, ∀ s, Exec.drive (State.step W) (fun s => program s.core) m S = some s →
        s.sub.mode = .fuzz ∧ s.Unperturbed) →
      (∀ m < n, ∀ s, Exec.drive (State.step W') (fun s => program s.core) m S' = some s →
        s.sub.mode = .normal) →
      S.history W program n = S'.history W' program n := by
  refine ⟨fun config pageSize files ls s hrun hmode => ?_, ?_⟩
  · obtain ⟨f, hf⟩ := Option.ne_none_iff_exists'.mp (State.exec_armed hrun hmode)
    exact ⟨f, hf, fun policy threads pick u h => fuzz_pick_spec hmode hf h⟩
  · intro program S S' n hcore hemitted hslot hfuzz hnormal
    have hlock : Option.Rel (Alike Sub.lastRrSlot)
        (Exec.drive (State.step W) (fun s => program s.core) n S)
        (Exec.drive (State.step W') (fun s => program s.core) n S') := by
      refine Exec.drive_lockstep (R := Alike Sub.lastRrSlot)
        (G := fun s => s.sub.mode = .fuzz ∧ s.Unperturbed) (H := fun s => s.sub.mode = .normal)
        (fun s s' h hG hH => ?_) n S S' ⟨hcore, hemitted, hslot⟩ hfuzz hnormal
      rw [h.core]
      exact h.fuzz_step hG.1 hG.2 hH (program s.core)
    unfold State.history
    generalize Exec.drive (State.step W) (fun s => program s.core) n S = o at hlock
    generalize Exec.drive (State.step W') (fun s => program s.core) n S' = o' at hlock
    cases hlock with
    | none => rfl
    | some h => exact congrArg some (Prod.ext h.core.symm h.emitted.symm)

namespace Sample

/-- Main creates two threads and yields, the threads yield. -/
def yielding (c : Core) : Label := match c.cpu with
  | .user .main => .call .main (if c.issued < 2 then create else .yield)
  | .user x => .call x .yield
  | _ => .tau

/-- `start` in `FUZZ` mode. -/
def startFuzz : State := { start with sub := (start.subExec world (.setMode .fuzz)).2 }

end Sample

/-- The program that yields runs in `FUZZ` mode as in `NORMAL` mode, and its first pick there is
    decision number one. -/
theorem fuzzing_permutes_schedules_yielding :
    Sample.startFuzz.history Sample.world Sample.yielding 15
        = Sample.start.history Sample.world Sample.yielding 15 ∧
      (Sample.start.history Sample.world Sample.yielding 15).map (fun h => h.1.acts) = some 3 ∧
    ∃ s pick u f', Exec.exec (State.step Sample.world) Sample.start
        [Sample.main Sample.create, .sub .main (.setMode .fuzz)] = some s ∧
      s.sub.mode = .fuzz ∧
      s.sub.pickReadyThreadMode Sample.world .rr s.core.threads = some (pick, u) ∧
      pick = some 0 ∧ u.fuzz = some f' ∧ f'.decisionCount = 1 := by
  obtain ⟨hpick, hruns⟩ := fuzzing_permutes_schedules Sample.world Sample.world
  refine ⟨hruns Sample.yielding Sample.startFuzz Sample.start 15 rfl rfl (by decide +kernel) ?_ ?_,
    by decide +kernel, ?_⟩
  · have hall : ∀ m < 15, (Exec.drive (State.step Sample.world) (fun s => Sample.yielding s.core) m
        Sample.startFuzz).all (fun s => decide (s.sub.mode = .fuzz) &&
          s.sub.fuzz.all fun f => decide (f.decisionCount < 5)) = true := by decide +kernel
    intro m hm s hs
    have hall := hall m hm
    rw [hs] at hall
    obtain ⟨hmode, hcount⟩ := Bool.and_eq_true_iff.mp hall
    refine ⟨of_decide_eq_true hmode, fun _ _ f hf => Or.inr ?_⟩
    rw [hf] at hcount
    exact of_decide_eq_true hcount
  · have hall : ∀ m < 15, (Exec.drive (State.step Sample.world) (fun s => Sample.yielding s.core) m
        Sample.start).all (fun s => decide (s.sub.mode = .normal)) = true := by decide +kernel
    intro m hm s hs
    have hall := hall m hm
    rw [hs] at hall
    exact of_decide_eq_true hall
  · have hfirst : (Exec.exec (State.step Sample.world) Sample.start
        [Sample.main Sample.create, .sub .main (.setMode .fuzz)]).any (fun s =>
          decide (s.sub.mode = .fuzz) && s.sub.fuzz.all (fun f => decide (f.decisionCount = 0)) &&
          (s.sub.pickReadyThreadMode Sample.world .rr s.core.threads).any
            fun r => decide (r.1 = some 0)) = true := by decide +kernel
    obtain ⟨s, hs, hcond⟩ := (Option.any_eq_true _ _).mp hfirst
    obtain ⟨hcond, hzero⟩ := Bool.and_eq_true_iff.mp hcond
    obtain ⟨hmode, hcount⟩ := Bool.and_eq_true_iff.mp hcond
    obtain ⟨⟨pick, u⟩, hu, hzero⟩ := (Option.any_eq_true _ _).mp hzero
    obtain ⟨f, hf, hpicks⟩ := hpick Sample.config 4096#64 (fun _ => none) _ s hs
      (of_decide_eq_true hmode)
    obtain ⟨-, -, f', hf', hdecisions⟩ := hpicks .rr s.core.threads pick u hu
    have hpick0 : pick = some 0 := of_decide_eq_true hzero
    rw [hf] at hcount
    have hcount : f.decisionCount = 0 := of_decide_eq_true hcount
    refine ⟨s, pick, u, f', hs, of_decide_eq_true hmode, hu, hpick0, hf', ?_⟩
    rw [hdecisions, if_neg (hpick0 ▸ Option.some_ne_none 0), hcount]
    rfl

end Gth

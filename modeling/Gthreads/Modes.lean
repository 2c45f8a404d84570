/-
  Scheduler mode and subsystems.

  The mode and the existence of the replay and fuzz state should go together.  Two functions assign
  the mode: `gth_scheduler_set_mode` cleans up after the old mode, `gth_replay_from` does not.  The
  trace functions touch none of the three (`Sub.control`).  So the only call that can break the
  agreement is a `gth_replay_from` in `FUZZ` mode: the fuzz state stays, and the next change to
  `FUZZ` mode is refused because there already is one.
-/
import Gthreads.Runs

namespace Gth

/-! ## What the trace functions leave alone -/

namespace Sub
variable {W : World} {u : Sub}

/-- The mode and the subsystems that belong to modes. -/
def control (u : Sub) : Mode × Option ReplayState × Option FuzzState := (u.mode, u.replay, u.fuzz)

/-- What the trace functions leave alone: all that picks depend on. -/
def frame (u : Sub) : (Mode × Option ReplayState × Option FuzzState) × Nat :=
  (u.control, u.lastRrSlot)

theorem frame_traceBufferFlush (W : World) (u : Sub) (buf : TraceBuffer) (path : Path) :
    (u.traceBufferFlush W buf path).2.frame = u.frame := by
  unfold traceBufferFlush
  split
  · rfl
  · dsimp only [fwrite, ask]
    rw [apply_ite Prod.snd, ite_self]
    rfl

theorem frame_traceFlush (W : World) (u : Sub) : (u.traceFlush W).frame = u.frame := by
  unfold traceFlush
  split
  · rfl
  · split
    · exact frame_traceBufferFlush W u _ _
    · rfl

theorem frame_traceAppend {u' : Sub} {r : List UInt8} (h : u.traceAppend r = some u') :
    u'.frame = u.frame := by
  unfold Sub.traceAppend at h
  split at h
  · nomatch h
  · obtain ⟨buf, -, rfl⟩ := Option.map_eq_some_iff.mp h
    rfl

theorem frame_traceRecord (W : World) (u : Sub) (e : Event) :
    (u.traceRecord W e).frame = u.frame := by
  unfold traceRecord
  split
  · rfl
  · split
    · rfl
    · split
      · rfl
      · split
        · rfl
        · dsimp only [traceTimestamp, ask]
          split
          · rename_i u' hu'
            exact (frame_traceAppend hu').trans rfl
          · have hm := frame_traceFlush W ({ u with calls := u.calls + 1 } : Sub)
            generalize Sub.traceFlush W ({ u with calls := u.calls + 1 } : Sub) = v at hm ⊢
            cases hv : v.traceAppend (recordBytes ((W.answer u.calls).time % 2 ^ 64) e.type.code
                e.tid (packData e.type e.data1 e.data2)) with
            | none => exact hm
            | some u' => exact (frame_traceAppend hv).trans hm

theorem frame_traceInit (W : World) (u : Sub) (initialized : Bool) :
    (u.traceInit W initialized).2.frame = u.frame := by
  unfold traceInit
  split
  · rfl
  · split
    · rfl
    · dsimp only [ask]
      rw [apply_ite Prod.snd, apply_ite frame]
      exact ite_self _

theorem frame_traceCleanup (W : World) (u : Sub) : (u.traceCleanup W).frame = u.frame := by
  unfold traceCleanup
  split
  · rfl
  · split
    · exact frame_traceFlush W u
    · rfl

theorem frame_traceWriteHeader (W : World) (u : Sub) (path : Path) :
    (u.traceWriteHeader W path).2.frame = u.frame := by
  unfold traceWriteHeader
  dsimp only [ask, fwrite]
  rw [apply_ite Prod.snd, ite_self]
  rfl

theorem frame_traceBufferCreate (W : World) (u : Sub) :
    (u.traceBufferCreate W).2.frame = u.frame := by
  unfold traceBufferCreate
  dsimp only [ask]
  split
  · rfl
  · split <;> rfl

theorem frame_traceStartOpened (W : World) (u : Sub) (t : TraceState) (path : Path) :
    (u.traceStartOpened W t path).2.frame = u.frame := by
  have hheader := frame_traceWriteHeader W u path
  unfold traceStartOpened
  dsimp only
  split
  · exact (frame_traceCleanup W _).trans hheader
  · have hbuffer := frame_traceBufferCreate W (u.traceWriteHeader W path).2
    split
    · exact (frame_traceCleanup W _).trans (hbuffer.trans hheader)
    · exact (frame_traceRecord W _ _).trans (hbuffer.trans hheader)

theorem frame_traceStart (W : World) (u : Sub) (initialized : Bool) (path : Option Path) :
    (u.traceStart W initialized path).2.frame = u.frame := by
  have hinit := frame_traceInit W u initialized
  unfold traceStart
  split
  · rfl
  · split
    · rfl
    · rfl
    · dsimp only
      split
      · exact hinit
      · split
        · exact hinit
        · split
          · exact hinit
          · split
            · exact (frame_traceCleanup W _).trans hinit
            · exact (frame_traceStartOpened W _ _ _).trans hinit

theorem frame_traceStop (W : World) (u : Sub) (initialized : Bool) :
    (u.traceStop W initialized).2.frame = u.frame := by
  unfold traceStop
  split
  · rfl
  · split
    · rfl
    · split
      · rfl
      · refine (frame_traceCleanup W _).trans ?_
        exact (frame_traceFlush W _).trans (frame_traceRecord W u _)

/-! ## What the other calls do to them -/

theorem frame_replayReadFile (W : World) (u : Sub) (path : Path) :
    (u.replayReadFile W path).2.frame = u.frame := by
  unfold replayReadFile
  dsimp only [ask]
  split
  · rfl
  · split_ifs <;> rfl

/-- `gth_replay_init` fails, or adds the replay state. -/
theorem replayInit_cases (W : World) (u : Sub) (initialized : Bool) (path : Option Path) :
    ((u.replayInit W initialized path).1 ≠ .ok ∧
      (u.replayInit W initialized path).2.frame = u.frame) ∨
    ((u.replayInit W initialized path).1 = .ok ∧ u.replay = none ∧
      (u.replayInit W initialized path).2.replay ≠ none ∧
      (u.replayInit W initialized path).2.mode = u.mode ∧
      (u.replayInit W initialized path).2.fuzz = u.fuzz ∧
      (u.replayInit W initialized path).2.lastRrSlot = u.lastRrSlot) := by
  unfold replayInit
  split
  · exact Or.inl ⟨nofun, rfl⟩
  · split
    · exact Or.inl ⟨nofun, rfl⟩
    · exact Or.inl ⟨nofun, rfl⟩
    · rename_i p _
      have hread := frame_replayReadFile W u p
      split
      · exact Or.inl ⟨nofun, rfl⟩
      · rename_i hnone
        split
        · rename_i v hv
          rw [hv] at hread
          exact Or.inl ⟨nofun, hread⟩
        · rename_i data v hv
          rw [hv] at hread
          dsimp only [ask]
          split
          · exact Or.inl ⟨nofun, hread⟩
          · split
            · exact Or.inl ⟨nofun, hread⟩
            · exact Or.inr ⟨rfl, not_not.mp hnone, nofun, congrArg (fun c => c.1.1) hread,
                congrArg (fun c => c.1.2.2) hread, congrArg Prod.snd hread⟩

/-- The first part of `gth_scheduler_set_mode`: clean up after the old mode. -/
def leaveMode (W : World) (u : Sub) : Sub :=
  let u := if u.mode = .record ∧ u.trace ≠ none then u.traceCleanup W else u
  let u := if u.mode = .replay ∧ u.replay ≠ none then u.replayCleanup else u
  if u.mode = .fuzz ∧ u.fuzz ≠ none then u.fuzzCleanup else u

/-- The clean-up drops what belongs to the old mode. -/
theorem leaveMode_frame (W : World) (u : Sub) : (u.leaveMode W).frame =
    ((u.mode, if u.mode = .replay then none else u.replay,
      if u.mode = .fuzz then none else u.fuzz), u.lastRrSlot) := by
  have htrace : (if u.mode = .record ∧ u.trace ≠ none then u.traceCleanup W else u).frame
      = u.frame := by
    split
    · exact frame_traceCleanup W u
    · rfl
  unfold leaveMode
  generalize (if u.mode = .record ∧ u.trace ≠ none then u.traceCleanup W else u) = v at htrace ⊢
  obtain ⟨hcontrol, hrr⟩ := Prod.mk.inj htrace
  obtain ⟨hmode, hrest⟩ := Prod.mk.inj hcontrol
  obtain ⟨hreplay, hfuzz⟩ := Prod.mk.inj hrest
  rw [← hmode, ← hrr, ← hreplay, ← hfuzz]
  have hr : (if v.mode = .replay ∧ v.replay ≠ none then v.replayCleanup else v)
      = { v with replay := if v.mode = .replay then none else v.replay } := by
    by_cases hm : v.mode = .replay
    · rw [if_pos hm]
      by_cases hne : v.replay = none
      · rw [if_neg fun hv => hv.2 hne, ← hne]
      · rw [if_pos ⟨hm, hne⟩]
        rfl
    · rw [if_neg fun hv => hm hv.1, if_neg hm]
  dsimp only
  rw [hr]
  by_cases hm : v.mode = .fuzz
  · rw [if_pos hm]
    by_cases hne : v.fuzz = none
    · rw [if_neg fun hv => hv.2 hne, ← hne]
      rfl
    · rw [if_pos ⟨hm, hne⟩]
      rfl
  · rw [if_neg fun hv => hm hv.1, if_neg hm]
    rfl

/-- **Mode and subsystems agree.** -/
structure Consistent (u : Sub) : Prop where
  fuzz : u.fuzz ≠ none ↔ u.mode = .fuzz
  replay : u.replay ≠ none → u.mode = .replay

theorem consistent_congr {v : Sub} (h : v.control = u.control) :
    v.Consistent ↔ u.Consistent := by
  obtain ⟨hmode, hrest⟩ := Prod.mk.inj h
  obtain ⟨hreplay, hfuzz⟩ := Prod.mk.inj hrest
  constructor
  · rintro ⟨hf, hr⟩
    rw [hfuzz, hmode] at hf
    rw [hreplay, hmode] at hr
    exact ⟨hf, hr⟩
  · rintro ⟨hf, hr⟩
    rw [← hfuzz, ← hmode] at hf
    rw [← hreplay, ← hmode] at hr
    exact ⟨hf, hr⟩

/-- After the clean-up there is neither replay nor fuzz state. -/
theorem Consistent.leaveMode (h : u.Consistent) :
    (u.leaveMode W).replay = none ∧ (u.leaveMode W).fuzz = none := by
  obtain ⟨hcontrol, -⟩ := Prod.mk.inj (leaveMode_frame W u)
  obtain ⟨-, hrest⟩ := Prod.mk.inj hcontrol
  obtain ⟨hreplay, hfuzz⟩ := Prod.mk.inj hrest
  refine ⟨hreplay.trans ?_, hfuzz.trans ?_⟩
  · by_cases hm : u.mode = .replay
    · exact if_pos hm
    · rw [if_neg hm]
      exact not_not.mp fun hne => hm (h.replay hne)
  · by_cases hm : u.mode = .fuzz
    · exact if_pos hm
    · rw [if_neg hm]
      exact not_not.mp fun hne => hm (h.fuzz.mp hne)

/-- `gth_scheduler_set_mode` on an initialised runtime, after the clean-up. -/
theorem schedulerSetMode_eq (config : Config) (mode : Mode) :
    u.schedulerSetMode W true config mode =
      let v := { u.leaveMode W with mode := mode }
      match mode with
      | .record =>
        let (status, v) := v.traceInit W true
        if status ≠ .ok ∧ status ≠ .estate then (status, { v with mode := .normal }) else (.ok, v)
      | .fuzz =>
        let seed := config.replaySeed.setWidth 64
        let seed := if seed = 0 then 123456789#64 else seed
        let (status, v) := v.fuzzInit W true seed
        if status ≠ .ok then (status, { v with mode := .normal }) else (.ok, v)
      | _ => (.ok, v) := rfl

/-- `gth_fuzz_init` without a fuzz state. -/
theorem fuzzInit_none (h : u.fuzz = none) (seed : BitVec 64) : u.fuzzInit W true seed =
    if (W.answer u.calls).ok = false then (.enomem, { u with calls := u.calls + 1 })
    else (.ok, { u with calls := u.calls + 1, fuzz := some (.ofSeed seed) }) := by
  unfold fuzzInit
  rw [if_neg (by decide : ¬ true = false), if_neg (not_not_intro h)]
  rfl

/-- A change to `FUZZ` mode that finds no fuzz state depends on its allocation only. -/
theorem schedulerSetMode_fuzz (h : (u.leaveMode W).fuzz = none) (config : Config) :
    (u.schedulerSetMode W true config .fuzz).1
      = (if (W.answer (u.leaveMode W).calls).ok then .ok else .enomem) ∧
    ((u.schedulerSetMode W true config .fuzz).2.fuzz ≠ none ↔
      (u.schedulerSetMode W true config .fuzz).2.mode = .fuzz) ∧
    (u.schedulerSetMode W true config .fuzz).2.replay = (u.leaveMode W).replay := by
  rw [schedulerSetMode_eq]
  dsimp only
  rw [fuzzInit_none (u := { u.leaveMode W with mode := .fuzz }) h]
  dsimp only
  cases (W.answer (u.leaveMode W).calls).ok with
  | false => exact ⟨rfl, ⟨fun hne => absurd h hne, nofun⟩, rfl⟩
  | true => exact ⟨rfl, ⟨fun _ => rfl, fun _ => nofun⟩, rfl⟩

/-- **`gth_scheduler_set_mode` keeps the agreement.** -/
theorem Consistent.schedulerSetMode (h : u.Consistent) (initialized : Bool) (config : Config)
    (mode : Mode) : (u.schedulerSetMode W initialized config mode).2.Consistent := by
  cases initialized with
  | false => exact h
  | true =>
    obtain ⟨hreplay, hfuzz⟩ := h.leaveMode (W := W)
    cases mode with
    | normal => exact ⟨⟨fun hne => absurd hfuzz hne, nofun⟩, fun hne => absurd hreplay hne⟩
    | replay => exact ⟨⟨fun hne => absurd hfuzz hne, nofun⟩, fun hne => absurd hreplay hne⟩
    | record =>
      have hc : ({ u.leaveMode W with mode := .record } : Sub).Consistent :=
        ⟨⟨fun hne => absurd hfuzz hne, nofun⟩, fun hne => absurd hreplay hne⟩
      have hi := congrArg Prod.fst (frame_traceInit W { u.leaveMode W with mode := .record } true)
      rw [schedulerSetMode_eq]
      dsimp only
      split
      · obtain ⟨-, hrest⟩ := Prod.mk.inj hi
        obtain ⟨hr, hf⟩ := Prod.mk.inj hrest
        refine ⟨⟨fun hne => absurd (hf.trans hfuzz) hne, nofun⟩,
          fun hne => absurd (hr.trans hreplay) hne⟩
      · exact (consistent_congr hi).mpr hc
    | fuzz =>
      obtain ⟨-, hf, hr⟩ := schedulerSetMode_fuzz (W := W) hfuzz config
      exact ⟨hf, fun hne => absurd (hr.trans hreplay) hne⟩

/-- **`gth_replay_from` keeps it iff it does not succeed in `FUZZ` mode.** -/
theorem Consistent.replayFrom_iff (h : u.Consistent) (initialized : Bool) (path : Option Path) :
    (u.replayFrom W initialized path).2.Consistent ↔
      ((u.replayInit W initialized path).1 = .ok → u.mode ≠ .fuzz) := by
  unfold replayFrom
  rcases replayInit_cases W u initialized path with ⟨hst, hc⟩ | ⟨hst, -, hr, -, hf, -⟩
  · generalize u.replayInit W initialized path = r at hst hc ⊢
    obtain ⟨st, v⟩ := r
    have hv : v.Consistent := (consistent_congr (congrArg Prod.fst hc)).mpr h
    refine iff_of_true ?_ fun hok => absurd hok hst
    cases st <;> first | exact hv | exact absurd rfl hst
  · generalize u.replayInit W initialized path = r at hst hr hf ⊢
    obtain ⟨st, v⟩ := r
    obtain rfl : st = .ok := hst
    dsimp only at hr hf ⊢
    constructor
    · rintro hcons - hmode
      have hne : v.fuzz ≠ none := by
        rw [hf]
        exact h.fuzz.mpr hmode
      nomatch hcons.fuzz.mp hne
    · intro hmode
      refine ⟨⟨fun hne => ?_, nofun⟩, fun _ => rfl⟩
      exact absurd (h.fuzz.mp (hf ▸ hne)) (hmode rfl)

theorem Consistent.fuzzSetRate (h : u.Consistent) (initialized : Bool) (rate : Nat) :
    (u.fuzzSetRate initialized rate).2.Consistent := by
  unfold Sub.fuzzSetRate
  split
  · exact h
  · split
    · exact h
    · split
      · exact h
      · rename_i f hfuzz _
        refine ⟨⟨fun _ => h.fuzz.mp ?_, fun _ => nofun⟩, h.replay⟩
        rw [hfuzz]
        nofun

end Sub

namespace State
variable {W : World} (s : State)

/-- The instrumentation at the end of a code segment changes the trace only. -/
theorem settle_frame (core : Core) : (s.settle W core).sub.frame = s.sub.frame := by
  show (core.events.foldl (fun u e => u.traceRecord W e) s.sub).frame = _
  generalize core.events = es
  generalize s.sub = u
  induction es generalizing u with
  | nil => rfl
  | cons e es ih => exact (ih _).trans (Sub.frame_traceRecord W u e)

theorem settle_mode (core : Core) : (s.settle W core).sub.mode = s.sub.mode :=
  congrArg (fun c => c.1.1) (s.settle_frame core)

end State

/-! ## Sequences of calls -/

/-- The calls that set the runtime up, change its mode and take it down. -/
inductive RuntimeCall where
  | init (config : Option Config)
  | sub (c : SubCall)
  | shutdown

/-- One such call. -/
def RuntimeCall.run (W : World) (s : State) : RuntimeCall → Status × State
  | .init config => runtimeInit s config
  | .sub c => ((s.subExec W c).1, { s with sub := (s.subExec W c).2 })
  | .shutdown => runtimeShutdown W s

/-- The state after the call. -/
def runtimeStep (W : World) (s : State) (c : RuntimeCall) : Option State := some (c.run W s).2

/-- **Mode and subsystems are consistent**, and so a change to `FUZZ` mode of an initialised runtime
    succeeds whenever its allocation does. -/
structure ModesConsistent (W : World) (s : State) : Prop extends s.sub.Consistent where
  setFuzz : s.core.initialized = true → (W.answer (s.sub.leaveMode W).calls).ok = true →
    ((RuntimeCall.sub (.setMode .fuzz)).run W s).1 = .ok

theorem Sub.Consistent.modes {W : World} {s : State} (h : s.sub.Consistent) :
    ModesConsistent W s := by
  refine ⟨h, fun hinit hok => ?_⟩
  have hset := (Sub.schedulerSetMode_fuzz (W := W) h.leaveMode.2 s.core.config).1
  show (s.sub.schedulerSetMode W s.core.initialized s.core.config .fuzz).1 = .ok
  rw [hinit, hset, hok]
  rfl

/-- No `gth_replay_from` succeeds in `FUZZ` mode. -/
def ReplaysOutsideFuzz (W : World) (s : State) : RuntimeCall → Prop
  | .sub (.replayFrom path) =>
    (s.sub.replayInit W s.core.initialized path).1 = .ok → s.sub.mode ≠ .fuzz
  | _ => True

/-- **One call.** -/
theorem consistent_run_iff {W : World} {s : State} (h : s.sub.Consistent) (c : RuntimeCall) :
    (c.run W s).2.sub.Consistent ↔ ReplaysOutsideFuzz W s c := by
  have hempty : ∀ (rr calls : Nat) files,
      ({ lastRrSlot := rr, files := files, calls := calls } : Sub).Consistent :=
    fun _ _ _ => ⟨⟨fun hne => absurd rfl hne, nofun⟩, fun hne => absurd rfl hne⟩
  cases c with
  | init config =>
    refine iff_of_true ?_ trivial
    show (runtimeInit s config).2.sub.Consistent
    unfold runtimeInit
    split
    · exact h
    · split
      · exact h
      · split
        · exact h
        · exact hempty _ _ _
  | shutdown =>
    refine iff_of_true ?_ trivial
    show (runtimeShutdown W s).2.sub.Consistent
    unfold runtimeShutdown
    split
    · exact h
    · exact hempty _ _ _
  | sub c =>
    cases c with
    | setMode mode => exact iff_of_true (h.schedulerSetMode _ _ mode) trivial
    | traceStart path =>
      exact iff_of_true ((Sub.consistent_congr
        (congrArg Prod.fst (Sub.frame_traceStart W s.sub _ path))).mpr h) trivial
    | traceStop =>
      exact iff_of_true ((Sub.consistent_congr
        (congrArg Prod.fst (Sub.frame_traceStop W s.sub _))).mpr h) trivial
    | traceFlush =>
      exact iff_of_true ((Sub.consistent_congr
        (congrArg Prod.fst (Sub.frame_traceFlush W s.sub))).mpr h) trivial
    | replayFrom path => exact h.replayFrom_iff s.core.initialized path
    | fuzzSetRate rate => exact iff_of_true (h.fuzzSetRate _ rate) trivial

/-- **When mode and subsystems stay consistent**: in a sequence of calls from the start of the
    process they do iff no `gth_replay_from` succeeds in `FUZZ` mode. -/
theorem modes_consistent_iff (W : World) (config : Config) (pageSize : BitVec 64)
    (files : Path → Option (List UInt8)) (calls : List RuntimeCall) :
    Exec.Always (runtimeStep W) (ModesConsistent W) (State.loaded config pageSize files) calls ↔
      Exec.Along (runtimeStep W) (ReplaysOutsideFuzz W) (State.loaded config pageSize files)
        calls := by
  have htotal : ∀ s c, ∃ t, runtimeStep W s c = some t := fun s c => ⟨_, rfl⟩
  obtain ⟨u, hu⟩ := Exec.exec_total htotal calls (State.loaded config pageSize files)
  refine Exec.always_iff_along (I := fun _ s => s.sub.Consistent) ?_
    (fun _ s h => h.modes) ?_ calls _ u ?_ hu
  · intro c cs s t h hG ht
    obtain rfl := Option.some.inj ht
    exact (consistent_run_iff h c).mpr hG
  · intro c cs s t h ht hP
    obtain rfl := Option.some.inj ht
    exact (consistent_run_iff h c).mp hP.toConsistent
  · exact ⟨⟨fun hne => absurd rfl hne, nofun⟩, fun hne => absurd rfl hne⟩

/-- A process records a trace, changes to `FUZZ` mode and replays the trace. -/
def fuzzReplayCalls : List RuntimeCall :=
  [.init (some Sample.config.1), .sub (.traceStart (some [1])), .sub .traceStop,
    .sub (.setMode .fuzz), .sub (.replayFrom (some [1]))]

/-- **The fuzz state outlives its mode**: the mode is `REPLAY`, there is a fuzz state, and a change
    to `FUZZ` mode is refused although its allocation would succeed. -/
theorem replay_leaves_fuzz : ∃ s,
    Exec.exec (runtimeStep Sample.world) (State.loaded Sample.config.1 4096#64 fun _ => none)
      fuzzReplayCalls = some s ∧
    s.sub.mode = .replay ∧ s.sub.fuzz ≠ none ∧ s.core.initialized = true ∧
    (Sample.world.answer (s.sub.leaveMode Sample.world).calls).ok = true ∧
    ((RuntimeCall.sub (.setMode .fuzz)).run Sample.world s).1 = .estate :=
  ⟨_, rfl, by decide +kernel, by decide +kernel, rfl, rfl, by decide +kernel⟩

end Gth

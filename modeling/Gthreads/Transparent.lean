/-
  Recording is transparent.

  A trace is only worth something if taking it does not change what it shows.  A program is run
  twice: once with its calls of `gth_trace_start`, `gth_trace_stop` and `gth_trace_flush`, and once
  without them, on another machine, with another clock and other results of every allocation, every
  `fopen` and every write.  The two runs take the same steps: the same picks, the same results of
  all calls, the same thread table.

  What a pick reads is `Sub.picks`: the round-robin cursor, the replay and fuzz state, and the mode
  up to the difference between `NORMAL` and `RECORD`, which `gth_scheduler_pick_ready_thread_mode`
  does not look at.  Each call sends equal `picks` to equal `picks`, with two exceptions that ask
  the C library whether there will be a fuzz or a replay state: a change to `FUZZ` mode and
  `gth_replay_from`.
-/
import Gthreads.FuzzRuns
import Gthreads.Lib.Simulation

namespace Gth

/-! ## What a pick reads -/

/-- The modes as the scheduler tells them apart. -/
def Mode.picks : Mode → Mode
  | .record => .normal
  | m => m

theorem Mode.picks_eq_iff {a m : Mode} (hm : m = .replay ∨ m = .fuzz) : a.picks = m ↔ a = m := by
  rcases hm with rfl | rfl <;> cases a <;> decide

namespace Sub

/-- All that a pick reads. -/
def picks (u : Sub) : (Mode × Option ReplayState × Option FuzzState) × Nat :=
  ((u.mode.picks, u.replay, u.fuzz), u.lastRrSlot)

theorem picks_of_frame {u v : Sub} (h : u.frame = v.frame) : u.picks = v.picks := by
  obtain ⟨hcontrol, hrr⟩ := Prod.mk.inj h
  obtain ⟨hmode, hrest⟩ := Prod.mk.inj hcontrol
  unfold picks
  rw [hmode, hrr]
  exact congrArg (fun p => ((v.mode.picks, p), v.lastRrSlot)) hrest

theorem picks_inj {u v : Sub} (h : u.picks = v.picks) :
    u.mode.picks = v.mode.picks ∧ u.replay = v.replay ∧ u.fuzz = v.fuzz ∧
      u.lastRrSlot = v.lastRrSlot := by
  obtain ⟨hcontrol, hrr⟩ := Prod.mk.inj h
  obtain ⟨hmode, hrest⟩ := Prod.mk.inj hcontrol
  obtain ⟨hreplay, hfuzz⟩ := Prod.mk.inj hrest
  exact ⟨hmode, hreplay, hfuzz, hrr⟩

/-- The scheduler tells `REPLAY` and `FUZZ` from every other mode. -/
theorem mode_eq_iff {u v : Sub} (h : u.mode.picks = v.mode.picks) {m : Mode}
    (hm : m = .replay ∨ m = .fuzz) : u.mode = m ↔ v.mode = m := by
  rw [← Mode.picks_eq_iff hm, h, Mode.picks_eq_iff hm]

/-! ## Equal picks -/

/-- **The pick is a function of `picks`** and of the fuel of the rejection loop. -/
theorem pickReadyThreadMode_picks {W W' : World} (hfuel : W'.fuel = W.fuel) {u u' v : Sub}
    (h : v.picks = u.picks) {policy : Policy} {threads : Slot → ThreadRecord} {pick : Option Slot}
    (hpick : u.pickReadyThreadMode W policy threads = some (pick, u')) :
    ∃ v', v.pickReadyThreadMode W' policy threads = some (pick, v') ∧ v'.picks = u'.picks := by
  obtain ⟨hmode, hreplay, hfuzz, hrr⟩ := picks_inj h
  obtain ⟨hchoice, hrr'⟩ := pickReadyThread_congr policy threads hrr
  -- the policy's half writes the cursor only
  have hnext : (v.pickReadyThread policy threads).2.picks
      = (u.pickReadyThread policy threads).2.picks := by
    rw [pickReadyThread_sub v, pickReadyThread_sub u]
    unfold picks
    rw [hmode, hreplay, hfuzz, hrr']
  rcases pickReadyThreadMode_cases hpick with
    ⟨r, hm, hr, rfl, rfl⟩ | ⟨f, f', hm, hf, hp, rfl⟩ | ⟨hr, hf, heq⟩
  · refine ⟨_, pickReadyThreadMode_replay W' policy ((mode_eq_iff hmode (.inl rfl)).mpr hm)
      (hreplay.trans hr), ?_⟩
    unfold picks
    rw [hmode, hfuzz, hrr]
  · have hp' : v.pickReadyThreadMode W' policy threads =
        some (pick, { (v.pickReadyThread policy threads).2 with fuzz := some f' }) := by
      rw [pickReadyThreadMode_fuzz W' policy ((mode_eq_iff hmode (.inr rfl)).mpr hm)
        (hfuzz.trans hf), hchoice, hfuel, hp]
      rfl
    refine ⟨_, hp', ?_⟩
    obtain ⟨hmode', hreplay', -, hslot⟩ := picks_inj hnext
    unfold picks
    rw [hmode', hreplay', hslot]
  · obtain rfl : pick = (u.pickReadyThread policy threads).1 := congrArg Prod.fst heq
    obtain rfl : u' = (u.pickReadyThread policy threads).2 := congrArg Prod.snd heq
    refine ⟨(v.pickReadyThread policy threads).2, ?_, hnext⟩
    rw [pickReadyThreadMode_policy W' policy
      (fun hm => hreplay.trans (hr ((mode_eq_iff hmode (.inl rfl)).mp hm)))
      (fun hm => hfuzz.trans (hf ((mode_eq_iff hmode (.inr rfl)).mp hm))), ← hchoice]

/-- Neither or both of two picks come about, and they are the same. -/
theorem pickReadyThreadMode_rel {W W' : World} (hfuel : W'.fuel = W.fuel) {u v : Sub}
    (h : v.picks = u.picks) (policy : Policy) (threads : Slot → ThreadRecord) :
    Option.Rel (SamePick picks) (u.pickReadyThreadMode W policy threads)
      (v.pickReadyThreadMode W' policy threads) := by
  cases hu : u.pickReadyThreadMode W policy threads with
  | some p =>
    obtain ⟨v', hv, hpicks⟩ := pickReadyThreadMode_picks hfuel h hu
    rw [hv]
    exact .some ⟨rfl, hpicks⟩
  | none =>
    cases hv : v.pickReadyThreadMode W' policy threads with
    | none => exact .none
    | some p =>
      obtain ⟨u', hu', -⟩ := pickReadyThreadMode_picks hfuel.symm h.symm hv
      cases hu.symm.trans hu'

/-- A change to any mode but `FUZZ`: the mode is the new one, or `NORMAL` instead of `RECORD`. -/
theorem schedulerSetMode_picks (W : World) (u : Sub) (config : Config) {mode : Mode}
    (hmode : mode ≠ .fuzz) : (u.schedulerSetMode W true config mode).2.picks =
      ((mode.picks, if u.mode = .replay then none else u.replay,
        if u.mode = .fuzz then none else u.fuzz), u.lastRrSlot) := by
  obtain ⟨hcontrol, hrr⟩ := Prod.mk.inj (leaveMode_frame W u)
  obtain ⟨-, hrest⟩ := Prod.mk.inj hcontrol
  have hset : ({ u.leaveMode W with mode := mode } : Sub).frame =
      ((mode, if u.mode = .replay then none else u.replay,
        if u.mode = .fuzz then none else u.fuzz), u.lastRrSlot) :=
    Prod.ext (Prod.ext rfl hrest) hrr
  rw [schedulerSetMode_eq]
  cases mode with
  | normal => exact picks_of_frame (v := ⟨_, _, false, none, _, _, fun _ => none, 0⟩) hset
  | replay => exact picks_of_frame (v := ⟨_, _, false, none, _, _, fun _ => none, 0⟩) hset
  | fuzz => exact absurd rfl hmode
  | record =>
    have hinit := (frame_traceInit W { u.leaveMode W with mode := .record } true).trans hset
    dsimp only
    split
    · obtain ⟨hc, hslot⟩ := Prod.mk.inj hinit
      obtain ⟨-, hkept⟩ := Prod.mk.inj hc
      exact Prod.ext (Prod.ext rfl hkept) hslot
    · exact picks_of_frame (v := ⟨.record, _, false, none, _, _, fun _ => none, 0⟩) hinit

end Sub

/-! ## Two runs -/

/-- The calls that only record. -/
def SubCall.records : SubCall → Bool
  | .traceStart _ | .traceStop | .traceFlush => true
  | _ => false

/-- The calls that make no fuzz or replay state. -/
def SubCall.plain : SubCall → Bool
  | .setMode mode => decide (mode ≠ .fuzz)
  | .replayFrom _ => false
  | _ => true

/-- A step that is not a call which only records. -/
def Label.essential : Label → Bool
  | .sub _ c => !c.records
  | _ => true

/-- A step that makes no fuzz or replay state. -/
def Label.plain : Label → Bool
  | .sub _ c => c.plain
  | _ => true

namespace Alike
variable {W W' : World} {s s' t : State}

/-- A call that only records is not seen. -/
theorem skip (h : Alike Sub.picks s s') {c : SubCall} (hc : c.records = true) :
    Alike Sub.picks { s with sub := (s.subExec W c).2 } s' := by
  refine ⟨h.core, h.emitted, h.sub.trans (Sub.picks_of_frame ?_).symm⟩
  cases c with
  | traceStart path => exact Sub.frame_traceStart W s.sub _ path
  | traceStop => exact Sub.frame_traceStop W s.sub _
  | traceFlush => exact Sub.frame_traceFlush W s.sub
  | setMode | replayFrom | fuzzSetRate => cases hc

/-- A call of the mode and fuzz interface made by both. -/
theorem subExec_picks (h : Alike Sub.picks s s') {c : SubCall} (hplain : c.plain = true)
    (hc : c.records = false) : (s'.subExec W' c).2.picks = (s.subExec W c).2.picks := by
  obtain ⟨hmode, hreplay, hfuzz, hrr⟩ := Sub.picks_inj h.sub
  cases c with
  | traceStart | traceStop | traceFlush => cases hc
  | replayFrom => cases hplain
  | setMode mode =>
    show (s'.sub.schedulerSetMode W' s'.core.initialized s'.core.config mode).2.picks
      = (s.sub.schedulerSetMode W s.core.initialized s.core.config mode).2.picks
    rw [h.core]
    cases s.core.initialized with
    | false => exact h.sub
    | true =>
      have hne : mode ≠ .fuzz := of_decide_eq_true hplain
      rw [Sub.schedulerSetMode_picks W' _ _ hne, Sub.schedulerSetMode_picks W _ _ hne, hreplay,
        hfuzz, hrr, if_congr (Sub.mode_eq_iff hmode (.inl rfl)) rfl rfl,
        if_congr (Sub.mode_eq_iff hmode (.inr rfl)) rfl rfl]
  | fuzzSetRate rate =>
    show (s'.sub.fuzzSetRate s'.core.initialized rate).2.picks
      = (s.sub.fuzzSetRate s.core.initialized rate).2.picks
    rw [h.core]
    unfold Sub.fuzzSetRate
    rw [hfuzz]
    split
    · exact h.sub
    · split
      · exact h.sub
      · split
        · exact h.sub
        · unfold Sub.picks
          rw [hmode, hreplay, hrr]

/-- **One step made by both.** -/
theorem plain_step (hfuel : W'.fuel = W.fuel) (h : Alike Sub.picks s s') {l : Label}
    (hplain : l.plain = true) (hess : l.essential = true) (hstep : State.step W s l = some t) :
    ∃ t', State.step W' s' l = some t' ∧ Alike Sub.picks t t' := by
  have hboth : Option.Rel (Alike Sub.picks) (State.step W s l) (State.step W' s' l) := by
    refine h.step (fun _ _ => Sub.picks_of_frame) l (fun x c hl => ?_)
      fun x caller _ => Sub.pickReadyThreadMode_rel hfuel h.sub _ _
    subst hl
    exact h.subExec_picks hplain (Bool.not_eq_true' _ ▸ hess)
  rw [hstep] at hboth
  generalize State.step W' s' l = o at hboth
  cases hboth with
  | some ht => exact ⟨_, rfl, ht⟩

end Alike

namespace Sample

/-- Main records a thread that takes a mutex and ends. -/
def recorded : List Label :=
  [.sub .main (.traceStart (some [1])), main (.mutexInit 7), main create, main (.join 1 true), .tau,
    .tau, green 0 (.mutexLock 7), .sub (.green 0) .traceFlush, green 0 (.mutexUnlock 7),
    green 0 (.exit 5), .tau, .sub .main .traceStop]

/-- A machine with another clock on which no file can be written. -/
def otherWorld : World := ⟨fun n => ⟨false, 1000 * n, some 0⟩, 100⟩

end Sample

end Gth

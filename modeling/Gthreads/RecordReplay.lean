/-
  Record and replay.

  A deterministic program runs from a state `S` with a trace, and again from a state with the same
  core in replay mode on the file of that trace.  The two runs make the same steps: between picks
  the runtime is a function of the core, and at every pick the script of the replay starts with
  the tid that the recording dispatched next.

  The two pickers agree in what they pick, and differ in one thing.  An attempt of the recorded
  run that finds nothing `READY` leaves no record; the replay then finds the next dispatch of the
  script impossible for now, picks nothing either, and sets `diverged`.  So the runs are the same
  (`replay_faithful`), and the flag stays clear exactly if no such attempt comes before a dispatch
  (`no_divergence_iff`).
-/
import Gthreads.Script
import Gthreads.WellFormed

namespace Gth

/-! ## The script of a recording -/

/-- The tids that context switches among these events switch to. -/
def eventTids (es : List Event) : List Tid :=
  (es.filter Event.isSwitch).map fun e => e.data2 % 2 ^ 32

theorem eventTids_append (es fs : List Event) : eventTids (es ++ fs) = eventTids es ++ eventTids fs := by
  rw [eventTids, List.filter_append, List.map_append]
  rfl

theorem length_eventTids (es : List Event) :
    (eventTids es).length = (es.filter Event.isSwitch).length := List.length_map _

theorem eventTids_of_filter {es : List Event} (h : es.filter Event.isSwitch = []) :
    eventTids es = [] := by
  rw [eventTids, h]
  rfl

/-- A record is a context switch iff its event is one. -/
theorem Encodes.isSwitchRecord {record : List UInt8} {e : Event} (h : Encodes record e) :
    isSwitchRecord record = e.isSwitch := by
  rw [Gth.isSwitchRecord, h.fields.2.2.1, Event.isSwitch]
  cases e.type <;> rfl

theorem Encodes.recordToTid {record : List UInt8} {e : Event} (h : Encodes record e)
    (hs : e.isSwitch = true) : recordToTid record = e.data2 % 2 ^ 32 := by
  obtain ⟨type, tid, data1, data2⟩ := e
  obtain rfl : type = .contextSwitch := by
    cases type with
    | contextSwitch => rfl
    | _ => nomatch hs
  have hdata : (data1 % 2 ^ 32 * 2 ^ 32 + data2 % 2 ^ 32) % 2 ^ 64 % 2 ^ 32 = data2 % 2 ^ 32 := by
    omega
  rw [Gth.recordToTid, h.fields.2.2.2.2]
  exact hdata

/-- **The script of a file** is the list of tids that the recording switched to. -/
theorem switchTids_encodes {rs : List (List UInt8)} {es : List Event}
    (h : List.Forall₂ Encodes rs es) : switchTids rs = eventTids es := by
  induction h with
  | nil => rfl
  | @cons r e rs es he _ ih =>
    rw [switchTids] at ih ⊢
    rw [eventTids] at ih ⊢
    cases hs : e.isSwitch with
    | false =>
      rw [List.filter_cons_of_neg (by rw [he.isSwitchRecord, hs]; exact Bool.false_ne_true),
        List.filter_cons_of_neg (by rw [hs]; exact Bool.false_ne_true)]
      exact ih
    | true =>
      rw [List.filter_cons_of_pos (by rw [he.isSwitchRecord, hs]), List.filter_cons_of_pos hs,
        List.map_cons, List.map_cons, he.recordToTid hs, ih]

/-! ## Recorded runs -/

namespace State
variable {W : World} {s t : State}

/-- A run that has not used up the tids is well formed, however many creations have failed. -/
theorem reach_wf_of_issued {config : ValidConfig} {pageSize : BitVec 64}
    {files : Path → Option (List UInt8)} {ls : List Label}
    (hrun : Exec.exec (step W) (State.start config pageSize files) ls = some s)
    (hjoin : JoinsFromMain ls) (hissued : s.core.issued < 2 ^ 32) : s.core.WF := by
  refine Exec.exec_induct (P := fun ls s => JoinsFromMain ls → s.core.issued < 2 ^ 32 → s.core.WF)
    (fun _ _ => start_wf config pageSize files) (fun ls l t u _ ih hstep hj hlt => ?_) ls s hrun
    hjoin hissued
  have hle := step_issued hstep
  have ht := ih (fun m hm => hj m (List.mem_append_left _ hm)) (by omega)
  refine (step_wf ht (hj l (List.mem_append_right _ List.mem_cons_self)) ?_ hstep).1
  split <;> omega

end State

/-- The program joins on main's stack only. -/
def Program.JoinsFromMain (p : Program) : Prop := ∀ x h, (p x h).isGreenJoin x = false

theorem Program.label_joinsFromMain {p : Program} (hp : p.JoinsFromMain) (s : State) :
    (p.label s).joinsFromMain = true := by
  unfold Program.label
  split
  · rw [Label.joinsFromMain, hp]
    rfl
  · rfl

namespace State

/-- `gth_trace_start(path)` was called. -/
def startTrace (W : World) (s : State) (path : Path) : State :=
  { s with sub := (s.subExec W (.traceStart (some path))).2 }

/-- `gth_replay_from(path)` was called. -/
def startReplay (W : World) (s : State) (path : Path) : State :=
  { s with sub := (s.subExec W (.replayFrom (some path))).2 }

/-- Reached by a run in which only main joins. -/
def Reached (W : World) (s : State) : Prop := ∃ config pageSize files ls,
  JoinsFromMain ls ∧ Exec.exec (step W) (State.start config pageSize files) ls = some s

end State

/-- **A recording**: `n` steps of the program `p`, from `gth_trace_start(path)` in the state `S` to
    `gth_trace_stop` in the state `T`, in one of the modes that record, with complete writes, tids
    that fit into a record, and a file that is not too large to be read. -/
structure Recording (W : World) (p : Program) (path : Path) (S : State) (n : Nat) (T : State)
    (file : List UInt8) : Prop where
  reached : S.Reached W
  mode : S.sub.mode ≠ .replay
  started : (S.subExec W (.traceStart (some path))).1 = .ok
  ran : p.run W n (S.startTrace W path) = some T
  stopped : (T.subExec W .traceStop).2.files path = some file
  complete : W.Complete
  tids : T.core.issued < 2 ^ 32
  size : file.length ≤ replayMaxFileSize

/-- `S'` is `S` again, with the file of the recording, in a world that can read it. -/
structure Rerun (W' : World) (path : Path) (S S' : State) (file : List UInt8) : Prop where
  core : S'.core = S.core
  replay : S'.sub.replay = none
  file : S'.sub.files path = some file
  able : W'.Able

/-! ## The two runs -/

/-- Nothing is `READY` at a pick. -/
def Core.IdlePick (s : Core) : Prop :=
  (∃ x caller, s.cpu = .sched x caller) ∧ ∀ i, (s.threads i).state ≠ .ready

/-- The recording, which ends in `T` after `n` more steps, and the replay, whose script is what the
    recording still switches to. -/
structure InStep (W : World) (p : Program) (T : State) (n : Nat) (s s' : State) (diverged : Bool) :
    Prop where
  core : s'.core = s.core
  wf : s.core.WF
  mode : s.sub.mode ≠ .replay
  run : p.run W n s = some T
  future : ∃ es, T.emitted = s.emitted ++ es ∧ s'.sub.Replaying (eventTids es) diverged ∧
    T.core.acts = s.core.acts + (eventTids es).length

namespace InStep
variable {W W' : World} {p : Program} {T s s' t : State} {n : Nat} {diverged : Bool}

/-- What a run of a program records from a state on. -/
theorem run_future (h : p.run W n s = some T) : ∃ es, T.emitted = s.emitted ++ es ∧
    T.core.acts = s.core.acts + (eventTids es).length ∧ s.core.issued ≤ T.core.issued := by
  refine @Exec.drive_inv _ _ (State.step W) p.label
    (fun t => ∃ es, t.emitted = s.emitted ++ es ∧
      t.core.acts = s.core.acts + (eventTids es).length ∧ s.core.issued ≤ t.core.issued)
    (fun t u hI hu => ?_) n s T ⟨[], (List.append_nil _).symm, rfl, Nat.le_refl _⟩ h
  obtain ⟨es, hes, hacts, hissued⟩ := hI
  obtain ⟨hem, hiss, hact⟩ := State.step_marks (p.label_ne_sub t) hu
  refine ⟨es ++ u.core.events, ?_, ?_, hissued.trans hiss⟩
  · rw [hem, hes, List.append_assoc]
  · rw [hact, hacts, eventTids_append, List.length_append, length_eventTids u.core.events,
      Nat.add_assoc]

/-- The replay after a step with the same core. -/
theorem settle_replaying {u : Sub} {script : List Tid} (h : u.Replaying script diverged)
    (core : Core) : ({ s' with sub := u }.settle W' core).sub.Replaying script diverged := by
  show (core.events.foldl (fun u e => u.traceRecord W' e) u).Replaying _ _
  rw [h.record]
  exact h

/-- **The two runs take their next step together.**  The flag is raised by an idle pick that is not
    after the last dispatch, and by nothing else. -/
theorem step (W' : World) (hp : p.JoinsFromMain) (htids : T.core.issued < 2 ^ 32)
    (h : InStep W p T (n + 1) s s' diverged) :
    ∃ t t' diverged', State.step W s (p.label s) = some t ∧
      State.step W' s' (p.label s') = some t' ∧ InStep W p T n t t' diverged' ∧
      (diverged' = true ↔ diverged = true ∨ s.core.IdlePick ∧ s.core.acts ≠ T.core.acts) := by
  obtain ⟨t, ht, hrun⟩ := Exec.drive_succ h.run
  obtain ⟨es, hes, hrep, hacts⟩ := h.future
  obtain ⟨es', hes', hacts', hle'⟩ := run_future hrun
  obtain ⟨hem, hle, -⟩ := State.step_marks (p.label_ne_sub s) ht
  have hsplit : eventTids es = eventTids t.core.events ++ eventTids es' := by
    rw [← eventTids_append]
    refine congrArg eventTids (List.append_cancel_left (hes.symm.trans (hes'.trans ?_)))
    rw [hem, List.append_assoc]
  have hwf : t.core.WF := by
    refine (State.step_wf h.wf (Program.label_joinsFromMain hp s) ?_ ht).1
    split <;> omega
  have hlabel : p.label s' = p.label s := p.label_congr h.core
  have hfresh : s'.fresh = s.fresh := congrArg (fun c : Core => { c with events := [] }) h.core
  -- outside picks both runs go on with the same core, and the script stands still
  have hquiet : (∀ x caller, s.core.cpu ≠ .sched x caller) → t.sub.mode = s.sub.mode →
      t.core.events.filter Event.isSwitch = [] →
      State.step W' s' (p.label s) = some (s'.settle W' t.core) →
      ∃ t t' diverged', State.step W s (p.label s) = some t ∧
        State.step W' s' (p.label s') = some t' ∧ InStep W p T n t t' diverged' ∧
        (diverged' = true ↔ diverged = true ∨ s.core.IdlePick ∧ s.core.acts ≠ T.core.acts) := by
    intro hcpu hmode hev hstep'
    rw [eventTids_of_filter hev, List.nil_append] at hsplit
    refine ⟨t, s'.settle W' t.core, diverged, ht, hlabel ▸ hstep',
      ⟨rfl, hwf, hmode ▸ h.mode, hrun, es', hes', hsplit ▸ settle_replaying hrep _, hacts'⟩,
      ⟨Or.inl, fun hor => hor.elim id fun hidle => ?_⟩⟩
    obtain ⟨⟨⟨x, caller, hc⟩, -⟩, -⟩ := hidle
    exact absurd hc (hcpu x caller)
  rcases State.step_cases ht with ⟨x, c, hl, -, -⟩ | ⟨x, c, hl, hcpu, hcall, rfl⟩ |
      ⟨x, caller, pick, sub, hl, hcpu, hpick, rfl⟩ | ⟨k, hl, hcpu, rfl⟩
  · exact absurd hl (p.label_ne_sub s x c)
  · refine hquiet (fun y caller hc => nomatch hcpu.symm.trans hc) (State.settle_mode _ _) ?_ ?_
    · rcases Core.exec_marks s.fresh x c with hm | hm <;> exact congrArg Prod.fst hm
    · rw [hl, State.step_call (h.core ▸ hcpu) hcall, hfresh]
      rfl
  · -- a pick: what the policy chose is what the script says
    obtain ⟨hmode, -, -, hready⟩ := pickReadyThreadMode_frame h.mode hpick
    have hmain := h.wf.cpu
    rw [hcpu] at hmain
    obtain ⟨rfl, hidle⟩ : x = .main ∧ ∀ i, (s.core.threads i).state ≠ .running := by
      cases hmain with
      | sched caller hx _ => exact ⟨rfl, hx.2⟩
    obtain ⟨u', hpick', hrep'⟩ :=
      hrep.pick (W := W') s.core.config.policy s.core.threads
    have hstep' : State.step W' s' .tau = some ({ s' with sub := u' }.settle W' (s.fresh.runNext
        .main caller (followScript s.core.threads (eventTids es) diverged).1)) := by
      rw [State.step_sched (h.core ▸ hcpu) (by rw [h.core]; exact hpick'), hfresh]
    cases pick with
    | some i =>
      have hi := hready i rfl
      have hne : (s.core.threads i).state ≠ .empty := by
        rw [hi]
        nofun
      have htid : (s.core.threads i).tid % 2 ^ 32 = (s.core.threads i).tid := by
        have hrange := (h.wf.body.tids.range i hne).2
        exact Nat.mod_eq_of_lt (Nat.lt_of_le_of_lt hrange (Nat.lt_of_le_of_lt (hle.trans hle') htids))
      have hscript : eventTids es = (s.core.threads i).tid :: eventTids es' := by
        rw [hsplit]
        have hev := congrArg Prod.fst (Core.runNext_marks s.fresh .main caller (some i))
        show ((s.fresh.runNext .main caller (some i)).events.filter Event.isSwitch).map _ ++ _ = _
        rw [show (s.fresh.runNext .main caller (some i)).events.filter Event.isSwitch
          = [traceContextSwitch s.core.currentTid (s.core.threads i).tid] from hev]
        show (s.core.threads i).tid % 2 ^ 32 :: _ = _
        rw [htid]
        rfl
      rw [hscript, followScript_ready h.wf.body.tids hi] at hrep' hstep'
      refine ⟨_, { s' with sub := u' }.settle W' (s.fresh.runNext .main caller (some i)), diverged,
        ht, (hlabel.trans hl).symm ▸ hstep', ⟨rfl, hwf, ?_, hrun, es', hes',
          settle_replaying hrep' _, hacts'⟩, ⟨Or.inl, fun hor => hor.elim id fun hid => ?_⟩⟩
      · rw [State.settle_mode]
        exact hmode ▸ h.mode
      · exact absurd hi (hid.1.2 i)
    | none =>
      have hnone := pickReadyThreadMode_none h.mode hpick
      have hev := congrArg Prod.fst (Core.runNext_marks s.fresh .main caller none)
      have hsame : eventTids es = eventTids es' :=
        hsplit.trans (congrArg (· ++ eventTids es') (eventTids_of_filter hev))
      rw [followScript_idle fun i => ⟨hnone i, hidle i⟩] at hrep' hstep'
      refine ⟨_, { s' with sub := u' }.settle W' (s.fresh.runNext .main caller none),
        diverged || !(eventTids es).isEmpty, ht, (hlabel.trans hl).symm ▸ hstep',
        ⟨rfl, hwf, ?_, hrun, es', hes', ?_, hacts'⟩, ?_⟩
      · rw [State.settle_mode]
        exact hmode ▸ h.mode
      · rw [← hsame]
        exact settle_replaying hrep' _
      · have hlen : (!(eventTids es).isEmpty) = true ↔ s.core.acts ≠ T.core.acts := by
          rw [hacts]
          cases eventTids es with
          | nil => simp
          | cons tid rest => simp
        rw [Bool.or_eq_true, hlen]
        exact or_congr_right
          ⟨fun hne => ⟨⟨⟨.main, caller, hcpu⟩, hnone⟩, hne⟩, fun hid => hid.2⟩
  · refine hquiet (fun y caller hc => nomatch hcpu.symm.trans hc) (State.settle_mode _ _) ?_ ?_
    · exact congrArg Prod.fst (Core.resume_marks s.fresh k)
    · rw [hl, State.step_swap (h.core ▸ hcpu), hfresh]
      rfl

end InStep

/-! ## The start of the replay -/

section
variable {W W' : World} {p : Program} {path : Path} {S S' T : State} {n : Nat} {file : List UInt8}

/-- A program whose tids fit into records keeps the state well formed. -/
theorem Program.run_wf (hp : p.JoinsFromMain) (htids : T.core.issued < 2 ^ 32) :
    ∀ (n : Nat) (s : State), s.core.WF → p.run W n s = some T → T.core.WF := by
  intro n
  induction n with
  | zero =>
    intro s hs h
    exact Option.some.inj h ▸ hs
  | succ n ih =>
    intro s hs h
    obtain ⟨t, ht, hrun⟩ := Exec.drive_succ h
    obtain ⟨-, -, -, hle⟩ := InStep.run_future hrun
    have hle' := State.step_issued ht
    refine ih t (State.step_wf hs (Program.label_joinsFromMain hp s) ?_ ht).1 hrun
    split <;> omega

/-- The end of a code segment records its events. -/
theorem State.settle_traces (hW : W.Complete) {s : State} {header : List UInt8} {es : List Event}
    (h : s.sub.Traces path header es) (hmode : s.sub.mode ≠ .replay) (core : Core) :
    (s.settle W core).sub.Traces path header (es ++ core.events) := by
  have hops := (h.ops hW (core.events.map TraceOp.record) hmode).1
  rw [List.foldl_map, List.filterMap_map] at hops
  rwa [show TraceOp.event ∘ TraceOp.record = some from rfl, List.filterMap_some] at hops

/-- A code segment adds the records of what it emits. -/
theorem State.step_traces (hW : W.Complete) {s t : State} {l : Label} {header : List UInt8}
    {es : List Event} (h : s.sub.Traces path header es) (hmode : s.sub.mode ≠ .replay)
    (hl : ∀ x c, l ≠ .sub x c) (hstep : State.step W s l = some t) :
    t.sub.Traces path header (es ++ t.core.events) ∧ t.sub.mode ≠ .replay := by
  rcases State.step_cases hstep with ⟨x, c, rfl, -, -⟩ | ⟨x, c, -, -, -, rfl⟩ |
      ⟨x, caller, pick, sub, -, -, hpick, rfl⟩ | ⟨k, -, -, rfl⟩
  · exact absurd rfl (hl x c)
  · exact ⟨State.settle_traces hW h hmode _, by rw [State.settle_mode]; exact hmode⟩
  · obtain ⟨hmode', htrace, hfiles, -⟩ := pickReadyThreadMode_frame hmode hpick
    refine ⟨State.settle_traces hW (s := { s with sub := sub }) (h.congr htrace hfiles)
      (hmode' ▸ hmode) _, ?_⟩
    rw [State.settle_mode]
    exact hmode' ▸ hmode
  · exact ⟨State.settle_traces hW h hmode _, by rw [State.settle_mode]; exact hmode⟩

/-- **The trace of a run** holds what the run has emitted. -/
theorem Program.run_traces (hW : W.Complete) {s : State} {header : List UInt8} {es : List Event}
    (h : s.sub.Traces path header es) (hmode : s.sub.mode ≠ .replay) (hrun : p.run W n s = some T) :
    ∃ fs, T.emitted = s.emitted ++ fs ∧ T.sub.Traces path header (es ++ fs) ∧
      T.sub.mode ≠ .replay := by
  refine @Exec.drive_inv _ _ (State.step W) p.label
    (fun t => ∃ fs, t.emitted = s.emitted ++ fs ∧ t.sub.Traces path header (es ++ fs) ∧
      t.sub.mode ≠ .replay) (fun t u hI hu => ?_) n s T ⟨[], (List.append_nil _).symm,
      by rw [List.append_nil]; exact h, hmode⟩ hrun
  obtain ⟨fs, hfs, htraces, hm⟩ := hI
  have hem := (State.step_marks (p.label_ne_sub t) hu).1
  refine ⟨fs ++ u.core.events, by rw [hem, hfs, List.append_assoc], ?_⟩
  rw [← List.append_assoc]
  exact State.step_traces hW htraces hm (p.label_ne_sub t) hu

/-- **The file of a recording** is a header and the records of what the run emitted. -/
theorem Recording.file_eq (hp : p.JoinsFromMain) (h : Recording W p path S n T file) :
    S.core.WF ∧ S.core.initialized = true ∧ path ≠ [] ∧
      (S.startTrace W path).sub.mode ≠ .replay ∧ ∃ time rs es,
        file = headerBytes time ++ rs.flatten ∧ T.emitted = S.emitted ++ es ∧
        List.Forall₂ Encodes rs (⟨.runtimeInit, 0, 0, 0⟩ :: es ++ [⟨.runtimeShutdown, 0, 0, 0⟩]) := by
  obtain ⟨config, pageSize, files, ls, hjoin, hls⟩ := h.reached
  obtain ⟨-, -, -, hle⟩ := InStep.run_future h.ran
  have hwf : S.core.WF := State.reach_wf_of_issued hls hjoin (Nat.lt_of_le_of_lt hle h.tids)
  obtain ⟨hinit, hpath⟩ := Sub.traceStart_args h.started
  obtain ⟨time, htraces, hmode⟩ := Sub.traceStart_traces h.complete h.mode h.started
  obtain ⟨es, hes, hT, hTm⟩ := Program.run_traces h.complete htraces hmode h.ran
  have hTwf : T.core.WF := Program.run_wf hp h.tids n (S.startTrace W path) hwf h.ran
  obtain ⟨rs, hfile, hrs⟩ := TraceEnd.stop.written h.complete hTwf.body.init hT hTm
  exact ⟨hwf, hinit, hpath, hmode, time, rs, es,
    Option.some.inj (h.stopped.symm.trans hfile), hes, hrs⟩

/-- **The replay starts in step with the recording.** -/
theorem Recording.inStep (hp : p.JoinsFromMain) (h : Recording W p path S n T file)
    (h' : Rerun W' path S S' file) :
    (S'.subExec W' (.replayFrom (some path))).1 = .ok ∧
      InStep W p T n (S.startTrace W path) (S'.startReplay W' path) false := by
  obtain ⟨hwf, hinit, hpath, hmode, time, rs, es, rfl, hes, hrs⟩ := h.file_eq hp
  obtain ⟨es', hes', hacts, -⟩ := InStep.run_future h.ran
  obtain rfl : es = es' := List.append_cancel_left (hes.symm.trans hes')
  have hsized := encodes_sized hrs
  have hwhole : rs.flatten.take (traceRecordSize * rs.length) = rs.flatten :=
    List.take_of_length_le (Nat.le_of_eq (Bytes.length_flatten_blocks hsized))
  have hlen : (headerBytes time ++ rs.flatten).length = traceHeaderSize + traceRecordSize * rs.length := by
    rw [List.length_append, Sub.length_headerBytes, Bytes.length_flatten_blocks hsized]
  have hone : 1 ≤ rs.length := by
    rw [hrs.length_eq]
    exact Nat.succ_le_succ (Nat.zero_le _)
  have hload := replayInit_ok h'.able hrs time (Nat.le_refl _)
    (by show 32 ≤ 32 * rs.length; omega) (hlen ▸ h.size) hpath h'.replay
    (by rw [hwhole]; exact h'.file)
  have hsub : S'.subExec W' (.replayFrom (some path)) = (.ok, { S'.sub with
      mode := .replay, traceEnabled := false, calls := S'.sub.calls + 5
      replay := some ⟨headerBytes time ++ rs.flatten.take (traceRecordSize * rs.length),
        traceRecordSize * rs.length / traceRecordSize, 0, false, 0⟩ }) := by
    show S'.sub.replayFrom W' S'.core.initialized (some path) = _
    rw [h'.core, hinit, Sub.replayFrom, hload]
  refine ⟨congrArg Prod.fst hsub, h'.core, hwf, hmode, h.ran, es, hes, ?_, hacts⟩
  show (S'.subExec W' (.replayFrom (some path))).2.Replaying _ _
  rw [hsub]
  refine ⟨rfl, _, rfl, ?_, rfl⟩
  have hrest := ReplayState.rest_cut hsized time (Nat.le_refl _) false 0
  have hcount : traceRecordSize * rs.length / traceRecordSize = rs.length :=
    Nat.mul_div_cancel_left _ (by decide)
  rw [ReplayState.script, hrest, hcount, List.take_length, switchTids_encodes hrs]
  show eventTids (⟨.runtimeInit, 0, 0, 0⟩ :: (es ++ [⟨.runtimeShutdown, 0, 0, 0⟩])) = eventTids es
  show eventTids (es ++ [⟨.runtimeShutdown, 0, 0, 0⟩]) = eventTids es
  rw [eventTids_append]
  exact List.append_nil _

/-- The two runs are in step all the way. -/
theorem Recording.inStep_at (hp : p.JoinsFromMain) (h : Recording W p path S n T file)
    (h' : Rerun W' path S S' file) {k : Nat} (hk : k ≤ n) :
    ∃ s s' diverged, p.run W k (S.startTrace W path) = some s ∧
      p.run W' k (S'.startReplay W' path) = some s' ∧ InStep W p T (n - k) s s' diverged := by
  obtain ⟨s, s', hs, hs', diverged, hR⟩ := @Exec.drive_sim _ _
    (State.step W) _ _ (State.step W') p.label p.label
    (fun n s s' => ∃ diverged, InStep W p T n s s' diverged)
    (fun n s s' hR => by
      obtain ⟨diverged, hR⟩ := hR
      obtain ⟨t, t', diverged', ht, ht', hR', -⟩ := hR.step W' hp h.tids
      exact ⟨t, t', ht, ht', diverged', hR'⟩)
    k (n - k) (S.startTrace W path) (S'.startReplay W' path)
    ⟨false, by rw [Nat.sub_add_cancel hk]; exact (h.inStep hp h').2⟩
  exact ⟨s, s', diverged, hs, hs', hR⟩

/-! ## The results -/

/-- **Replay is faithful**: it accepts the file, and it runs through the same core states as the
    recording, step by step; so it dispatches the same tids, and every call up to the end of the
    recording has the same result. -/
theorem replay_faithful (hp : p.JoinsFromMain) (h : Recording W p path S n T file)
    (h' : Rerun W' path S S' file) :
    (S'.subExec W' (.replayFrom (some path))).1 = .ok ∧ ∀ k ≤ n, ∃ s s',
      p.run W k (S.startTrace W path) = some s ∧ p.run W' k (S'.startReplay W' path) = some s' ∧
      s'.core = s.core := by
  refine ⟨(h.inStep hp h').1, fun k hk => ?_⟩
  obtain ⟨s, s', diverged, hs, hs', hR⟩ := h.inStep_at hp h' hk
  exact ⟨s, s', hs, hs', hR.core⟩

/-- At the end of its script a replay picks nothing, and its flag stays as it is. -/
theorem Program.run_script_end {s s' : State} {diverged : Bool} (k : Nat)
    (h : s.sub.Replaying [] diverged) (hrun : p.run W k s = some s') :
    s'.sub.Replaying [] diverged := by
  refine @Exec.drive_inv _ _ (State.step W) p.label
    (fun t => t.sub.Replaying [] diverged) (fun t u hI hu => ?_) k s s' h hrun
  rcases State.step_cases hu with ⟨x, c, hl, -, -⟩ | ⟨x, c, -, -, -, rfl⟩ |
      ⟨x, caller, pick, sub, -, -, hpick, rfl⟩ | ⟨k, -, -, rfl⟩
  · exact absurd hl (p.label_ne_sub t x c)
  · exact InStep.settle_replaying hI _
  · obtain ⟨u', hpick', hI'⟩ := hI.pick (W := W) t.core.config.policy t.core.threads
    obtain ⟨-, rfl⟩ := Prod.mk.inj (Option.some.inj (hpick'.symm.trans hpick))
    exact InStep.settle_replaying hI' _
  · exact InStep.settle_replaying hI _

/-- **When replay diverges from its own recording**: exactly if an attempt to schedule that found
    nothing `READY` came before the last dispatch of the recording. -/
theorem no_divergence_iff (hp : p.JoinsFromMain) (h : Recording W p path S n T file)
    (h' : Rerun W' path S S' file) :
    (∀ k s', p.run W' k (S'.startReplay W' path) = some s' →
      ∃ r, s'.sub.replay = some r ∧ r.diverged = false) ↔
    ∀ k < n, ∀ s, p.run W k (S.startTrace W path) = some s → s.core.IdlePick →
      s.core.acts = T.core.acts := by
  obtain ⟨-, hstart⟩ := h.inStep hp h'
  constructor
  · intro hnever k hk s hs hidle
    by_contra hacts
    -- the recording goes on from `s`, and the replay raises its flag there
    obtain ⟨s₀, s', diverged, hs₀, hs', hR⟩ := h.inStep_at hp h' (Nat.le_of_lt hk)
    obtain rfl : s = s₀ := Option.some.inj (hs.symm.trans hs₀)
    obtain ⟨m, hm⟩ : ∃ m, n - k = m + 1 := ⟨n - k - 1, by omega⟩
    rw [hm] at hR
    obtain ⟨t, t', diverged', -, ht', hR', hflag⟩ := hR.step W' hp h.tids
    obtain ⟨r, hr, hclear⟩ := hnever (k + 1) t' (Exec.drive_snoc hs' ht')
    obtain ⟨es, -, ⟨-, r', hr', -, hdiv⟩, -⟩ := hR'.future
    obtain rfl : r = r' := Option.some.inj (hr.symm.trans hr')
    have hset := hflag.mpr (Or.inr ⟨hidle, hacts⟩)
    rw [← hdiv, hclear] at hset
    nomatch hset
  · intro hidle k s' hs'
    have hclear : ∀ k ≤ n, ∃ s s', p.run W k (S.startTrace W path) = some s ∧
        p.run W' k (S'.startReplay W' path) = some s' ∧ InStep W p T (n - k) s s' false := by
      intro k
      induction k with
      | zero => exact fun _ => ⟨_, _, rfl, rfl, hstart⟩
      | succ k ih =>
        intro hk
        obtain ⟨s, s', hs, hs', hR⟩ := ih (by omega)
        obtain ⟨m, hm⟩ : ∃ m, n - k = m + 1 := ⟨n - k - 1, by omega⟩
        rw [hm] at hR
        obtain ⟨t, t', diverged', ht, ht', hR', hflag⟩ := hR.step W' hp h.tids
        obtain rfl : diverged' = false := by
          rw [Bool.eq_false_iff]
          intro hset
          rcases hflag.mp hset with hset | ⟨hid, hacts⟩
          · nomatch hset
          · exact hacts (hidle k hk s hs hid)
        exact ⟨t, t', Exec.drive_snoc hs ht, Exec.drive_snoc hs' ht',
          by rw [show n - (k + 1) = m by omega]; exact hR'⟩
    by_cases hk : k ≤ n
    · obtain ⟨s, s'', -, hs'', hR⟩ := hclear k hk
      obtain rfl : s' = s'' := Option.some.inj (hs'.symm.trans hs'')
      obtain ⟨es, -, ⟨-, r, hr, -, hdiv⟩, -⟩ := hR.future
      exact ⟨r, hr, hdiv⟩
    · -- behind the end of the recording the script is empty
      obtain ⟨s, s'', -, hs'', hR⟩ := hclear n (Nat.le_refl n)
      rw [Nat.sub_self] at hR
      obtain ⟨es, hes, hrep, -⟩ := hR.future
      obtain rfl : s = T := Option.some.inj hR.run
      obtain rfl : es = [] := List.self_eq_append_right.mp hes
      obtain ⟨m, rfl⟩ : ∃ m, k = n + m := ⟨k - n, by omega⟩
      rw [Program.run, Exec.drive_add, show Exec.drive _ _ n _ = _ from hs''] at hs'
      obtain ⟨-, r, hr, -, hdiv⟩ := Program.run_script_end m hrep hs'
      exact ⟨r, hr, hdiv⟩

end

/-! ## Small programs -/

namespace Sample

/-- Main makes the calls `calls` one after the other; threads end at once. -/
def program (calls : List Call) : Program
  | .main, h => calls.getD (h.countP fun o => match o with | .ret 0 _ _ => true | _ => false) .self
  | .green _, _ => .exit 5

theorem program_joinsFromMain (calls : List Call) : (program calls).JoinsFromMain := by
  intro x h
  cases x with
  | main =>
    show Call.isGreenJoin .main (calls.getD _ _) = false
    generalize calls.getD _ _ = c
    cases c <;> rfl
  | green i => rfl

/-- The same start, with the file `file`. -/
def startWith (file : List UInt8) : State :=
  State.start config 4096#64 (Function.update (fun _ => none) [116] (some file))

/-- `n` steps with a trace: the end of the run, and the file. -/
def trace (calls : List Call) (n : Nat) : Option (State × List UInt8) :=
  ((program calls).run world n (start.startTrace world [116])).bind fun T =>
    ((T.subExec world .traceStop).2.files [116]).map fun file => (T, file)

theorem recording (calls : List Call) {n : Nat}
    (h : ((trace calls n).any fun r => decide (r.1.core.issued < 2 ^ 32) &&
      decide (r.2.length ≤ replayMaxFileSize)) = true) :
    ∃ T file, trace calls n = some (T, file) ∧
      Recording world (program calls) [116] start n T file := by
  obtain ⟨⟨T, file⟩, hr, hfit⟩ := (Option.any_eq_true _ _).mp h
  obtain ⟨htids, hsize⟩ := Bool.and_eq_true_iff.mp hfit
  obtain ⟨T', hrun, hT⟩ := Option.bind_eq_some_iff.mp hr
  obtain ⟨file', hfile, heq⟩ := Option.map_eq_some_iff.mp hT
  obtain ⟨rfl, rfl⟩ := Prod.mk.inj heq
  exact ⟨T', file', hr, ⟨config, 4096#64, _, [], nofun, rfl⟩, by decide, by decide +kernel, hrun,
    hfile, fun _ => rfl, of_decide_eq_true htids, of_decide_eq_true hsize⟩

theorem rerun (file : List UInt8) : Rerun world [116] start (startWith file) file := by
  refine ⟨rfl, rfl, ?_, fun _ => ⟨rfl, rfl⟩⟩
  show Function.update (fun _ => none) [116] (some file) [116] = some file
  exact Function.update_self _ _ _

end Sample

theorem replay_faithful_join : ∃ T file,
    Recording Sample.world (Sample.program [Sample.create, .yield, .join 1 true]) [116] Sample.start
      8 T file ∧ ∃ s s',
      (Sample.program [Sample.create, .yield, .join 1 true]).run Sample.world 8
        (Sample.start.startTrace Sample.world [116]) = some s ∧
      (Sample.program [Sample.create, .yield, .join 1 true]).run Sample.world 8
        ((Sample.startWith file).startReplay Sample.world [116]) = some s' ∧
      s'.core = s.core := by
  obtain ⟨T, file, -, hrec⟩ := Sample.recording [Sample.create, .yield, .join 1 true]
    (n := 8) (by decide +kernel)
  exact ⟨T, file, hrec, (replay_faithful (Sample.program_joinsFromMain _) hrec
    (Sample.rerun file)).2 8 (Nat.le_refl 8)⟩

/-- The replay of a recording that is never idle does not diverge. -/
theorem no_divergence_join : ∃ T file,
    Recording Sample.world (Sample.program [Sample.create, .yield, .join 1 true]) [116] Sample.start
      8 T file ∧ ∀ k s', (Sample.program [Sample.create, .yield, .join 1 true]).run Sample.world k
        ((Sample.startWith file).startReplay Sample.world [116]) = some s' →
      ∃ r, s'.sub.replay = some r ∧ r.diverged = false := by
  obtain ⟨T, file, -, hrec⟩ := Sample.recording [Sample.create, .yield, .join 1 true]
    (n := 8) (by decide +kernel)
  refine ⟨T, file, hrec, (no_divergence_iff (Sample.program_joinsFromMain _) hrec
    (Sample.rerun file)).mpr fun k hk s hs hidle => ?_⟩
  -- at the only pick there is a thread
  have hpicks : ∀ k < 8, ((Sample.program [Sample.create, .yield, .join 1 true]).run Sample.world k
      (Sample.start.startTrace Sample.world [116])).all (fun s => s.core.cpu.casesOn (fun _ => true)
        (fun _ _ => decide (∃ i, (s.core.threads i).state = .ready)) (fun _ => true)) = true := by
    decide +kernel
  have hpick := hpicks k hk
  rw [hs, Option.all_some] at hpick
  obtain ⟨⟨x, caller, hcpu⟩, hnone⟩ := hidle
  rw [hcpu] at hpick
  obtain ⟨i, hi⟩ := of_decide_eq_true hpick
  exact absurd hi (hnone i)

/-- Main yields while there is no thread, and creates and runs one afterwards. -/
def idleCalls : List Call := [.yield, Sample.create, .yield]

/-- **A false divergence**: the replay of a recording of the same program from the same state sets
    `diverged` at its first step, when main yields and there is no thread yet. -/
theorem idle_pick_diverges : ∃ T file,
    Recording Sample.world (Sample.program idleCalls) [116] Sample.start 8 T file ∧
    Rerun Sample.world [116] Sample.start (Sample.startWith file) file ∧
    ∃ s' r, (Sample.program idleCalls).run Sample.world 2
        ((Sample.startWith file).startReplay Sample.world [116]) = some s' ∧
      s'.sub.replay = some r ∧ r.diverged = true := by
  obtain ⟨T, file, htrace, hrec⟩ := Sample.recording idleCalls (n := 8)
    (by decide +kernel)
  have hflag : ((Sample.trace idleCalls 8).bind fun r =>
      ((Sample.program idleCalls).run Sample.world 2
        ((Sample.startWith r.2).startReplay Sample.world [116])).bind fun s' =>
          s'.sub.replay.map ReplayState.diverged) = some true := by decide +kernel
  rw [htrace, Option.bind_some] at hflag
  obtain ⟨s', hs', hr⟩ := Option.bind_eq_some_iff.mp hflag
  obtain ⟨r, hr, hdiv⟩ := Option.map_eq_some_iff.mp hr
  exact ⟨T, file, hrec, Sample.rerun file, s', r, hs', hr, hdiv⟩

end Gth

/-
  What `diverged` says about a replayed run.

  `gth_replay_next_thread` is the only function that compares the run with the trace, and it looks
  at context-switch records only; `gth_replay_validate_event`, which would compare the others, has
  no caller.  So the dispatches of a replayed run follow those of the trace, and the flag is
  raised exactly by a pick for which the thread of the next context-switch record is not runnable
  (`Follows.step`).  Whatever else the program does between its dispatches goes unnoticed.

  What is missing is the call of `gth_replay_validate_event` at the instrumentation points, and a
  pick that does not skip records: if every step passes that test (`Validated`), a clear flag says
  that the run tells just what the trace tells (`Follows.prefix_iff`), and then no thread is left
  over at the end of a trace in which every thread ends.
-/
import Gthreads.Narrated
import Gthreads.RecordReplay

namespace Gth

/-! ## The events of a run and of a trace -/

def recordPair (record : List UInt8) : Nat × Nat := (recordType record, recordTid record)

/-- The pairs of the records between `RUNTIME_INIT` and `RUNTIME_SHUTDOWN`. -/
def ReplayState.tracePairs (r : ReplayState) : List (Nat × Nat) :=
  (((r.rest.map recordPair).dropWhile fun p => p.1 != EventType.runtimeInit.code).drop 1).takeWhile
    fun p => p.1 != EventType.runtimeShutdown.code

/-- The pairs that the run from `S` to `s` would have recorded. -/
def State.pairsSince (S s : State) : List (Nat × Nat) :=
  (s.emitted.drop S.emitted.length).map Event.pair

/-- At a pick, the thread of the next context-switch record is not runnable.  `script` is that of
    the whole trace, and `acts` the number of dispatches before the replay. -/
def Core.MissedPick (s : Core) (script : List Tid) (acts : Nat) : Prop :=
  (∃ x caller, s.cpu = .sched x caller) ∧
    ∃ tid, script[s.acts - acts]? = some tid ∧ replayFindThread s.threads tid = none

/-! ## The dispatches follow the script -/

theorem replayFindThread_tid {threads : Slot → ThreadRecord} {tid : Tid} {i : Slot}
    (h : replayFindThread threads tid = some i) : (threads i).tid = tid := by
  unfold replayFindThread at h
  split at h
  · nomatch h
  · split at h
    · nomatch h
    · rename_i j hj
      split at h
      · nomatch h
      · exact Option.some.inj h ▸ (findThread_some hj).2

/-- Replay picks nobody and leaves the script as it is, or picks the thread of its first tid. -/
theorem followScript_cases (threads : Slot → ThreadRecord) (script : List Tid) (diverged : Bool) :
    ((followScript threads script diverged).1 = none ∧
      (followScript threads script diverged).2.1 = script) ∨
    ∃ tid rest i, script = tid :: rest ∧ replayFindThread threads tid = some i ∧
      followScript threads script diverged = (some i, rest, diverged) := by
  cases script with
  | nil => exact Or.inl ⟨rfl, rfl⟩
  | cons tid rest =>
    cases hfind : replayFindThread threads tid with
    | none =>
      rw [followScript, hfind]
      exact Or.inl ⟨rfl, rfl⟩
    | some i => exact Or.inr ⟨tid, rest, i, rfl, hfind, by rw [followScript, hfind]⟩

/-- It raises the flag if there is a first tid and its thread is not runnable. -/
theorem followScript_flag (threads : Slot → ThreadRecord) (script : List Tid) (diverged : Bool) :
    (followScript threads script diverged).2.2 = true ↔ diverged = true ∨
      ∃ tid, script.head? = some tid ∧ replayFindThread threads tid = none := by
  cases script with
  | nil => exact ⟨Or.inl, fun h => h.elim id fun ⟨_, htid, _⟩ => by cases htid⟩
  | cons tid rest =>
    rw [followScript]
    cases hfind : replayFindThread threads tid with
    | none => exact ⟨fun _ => Or.inr ⟨tid, rfl, hfind⟩, fun _ => rfl⟩
    | some i =>
      refine ⟨Or.inl, fun h => h.elim id ?_⟩
      rintro ⟨tid', htid, hnone⟩
      obtain rfl : tid = tid' := Option.some.inj htid
      cases hnone.symm.trans hfind

/-- A script has 32-bit tids. -/
theorem ReplayState.script_lt (r : ReplayState) : ∀ tid ∈ r.script, tid < 2 ^ 32 := by
  intro tid htid
  obtain ⟨record, -, rfl⟩ := List.mem_map.mp htid
  exact Nat.mod_lt _ (by decide)

/-- The run from `S` to `s` has made the first dispatches of `script`, and the rest is to come. -/
def Follows (script : List Tid) (S s : State) (diverged : Bool) : Prop :=
  ∃ es rest, s.emitted = S.emitted ++ es ∧ s.core.acts = S.core.acts + (eventTids es).length ∧
    script = eventTids es ++ rest ∧ s.sub.Replaying rest diverged

namespace Follows
variable {W : World} {p : Program} {script : List Tid} {S s t : State} {diverged : Bool}

/-- A step without a pick leaves the replay as it is. -/
theorem quiet {core : Core} (h : Follows script S s diverged)
    (hmarks : core.marks = s.fresh.marks ∨
      core.marks = (s.fresh.events.filter Event.isSwitch, s.fresh.acts, s.fresh.issued + 1)) :
    Follows script S (s.settle W core) diverged := by
  obtain ⟨es, rest, hes, hacts, hscript, hrep⟩ := h
  have hev : core.events.filter Event.isSwitch = [] := by
    rcases hmarks with hm | hm <;> exact congrArg Prod.fst hm
  have hsame : core.acts = s.core.acts := by
    rcases hmarks with hm | hm <;> exact congrArg (fun q => q.2.1) hm
  have htids : eventTids (es ++ core.events) = eventTids es := by
    rw [eventTids_append, eventTids_of_filter hev, List.append_nil]
  refine ⟨es ++ core.events, rest, ?_, ?_, ?_, InStep.settle_replaying hrep core⟩
  · rw [State.settle, hes, List.append_assoc]
  · rw [htids, ← hacts]
    exact hsame
  · rw [htids, hscript]

/-- **A pick** takes the next tid of the script if its thread is runnable; otherwise it raises the
    flag, unless the script is used up. -/
theorem picked (hwide : ∀ tid ∈ script, tid < 2 ^ 32) (h : Follows script S s diverged)
    {pick : Option Slot} {sub : Sub} (x : Ctx) (caller : Caller)
    (hpick : s.sub.pickReadyThreadMode W s.core.config.policy s.core.threads = some (pick, sub)) :
    ∃ diverged', Follows script S ({ s with sub := sub }.settle W (s.fresh.runNext x caller pick))
        diverged' ∧
      (diverged' = true ↔ diverged = true ∨ ∃ tid, script[s.core.acts - S.core.acts]? = some tid ∧
        replayFindThread s.core.threads tid = none) := by
  obtain ⟨es, rest, hes, hacts, hscript, hrep⟩ := h
  obtain ⟨u', hpick', hrep'⟩ := hrep.pick (W := W) s.core.config.policy s.core.threads
  obtain ⟨rfl, rfl⟩ := Prod.mk.inj (Option.some.inj (hpick.symm.trans hpick'))
  -- the next tid of the script stands right behind the dispatches made so far
  have hnext : script[s.core.acts - S.core.acts]? = rest.head? := by
    rw [hacts, Nat.add_sub_cancel_left, hscript, List.getElem?_append_right (Nat.le_refl _),
      Nat.sub_self, List.head?_eq_getElem?]
  refine ⟨(followScript s.core.threads rest diverged).2.2, ?_, ?_⟩
  · rcases followScript_cases s.core.threads rest diverged with ⟨hidle, hrest⟩ |
        ⟨tid, rest, i, rfl, hfind, heq⟩
    · rw [hrest] at hrep'
      rw [hidle]
      exact quiet (s := { s with sub := sub }) ⟨es, rest, hes, hacts, hscript, hrep'⟩
        (Or.inl (Core.runNext_marks s.fresh x caller none))
    · rw [heq] at hrep' ⊢
      have htid : (s.core.threads i).tid % 2 ^ 32 = tid := by
        rw [replayFindThread_tid hfind]
        refine Nat.mod_eq_of_lt (hwide tid ?_)
        rw [hscript]
        exact List.mem_append_right _ List.mem_cons_self
      have hmarks := Core.runNext_marks s.fresh x caller (some i)
      have hev : eventTids (s.fresh.runNext x caller (some i)).events = [tid] := by
        rw [eventTids, show List.filter Event.isSwitch _ = _ from congrArg Prod.fst hmarks]
        exact congrArg (fun n => [n]) htid
      refine ⟨es ++ (s.fresh.runNext x caller (some i)).events, rest, ?_, ?_, ?_,
        InStep.settle_replaying hrep' _⟩
      · rw [State.settle, hes, List.append_assoc]
      · rw [eventTids_append, hev, List.length_append, ← Nat.add_assoc, ← hacts]
        exact congrArg (fun q => q.2.1) hmarks
      · rw [eventTids_append, hev, List.append_assoc, hscript]
        rfl
  · rw [hnext]
    exact followScript_flag s.core.threads rest diverged

/-- **One step**: the flag is raised by a missed pick, and by nothing else. -/
theorem step (hwide : ∀ tid ∈ script, tid < 2 ^ 32) (h : Follows script S s diverged)
    (hstep : State.step W s (p.label s) = some t) :
    ∃ diverged', Follows script S t diverged' ∧
      (diverged' = true ↔ diverged = true ∨ s.core.MissedPick script S.core.acts) := by
  have hquiet : (∀ x caller, s.core.cpu ≠ .sched x caller) → Follows script S t diverged →
      ∃ diverged', Follows script S t diverged' ∧
        (diverged' = true ↔ diverged = true ∨ s.core.MissedPick script S.core.acts) := by
    intro hcpu ht
    refine ⟨diverged, ht, Or.inl, fun hor => hor.elim id fun hmiss => ?_⟩
    obtain ⟨⟨x, caller, hc⟩, -⟩ := hmiss
    exact absurd hc (hcpu x caller)
  rcases State.step_cases hstep with ⟨x, c, hl, -, -⟩ | ⟨x, c, -, hcpu, -, rfl⟩ |
      ⟨x, caller, pick, sub, -, hcpu, hpick, rfl⟩ | ⟨k, -, hcpu, rfl⟩
  · exact absurd hl (p.label_ne_sub s x c)
  · exact hquiet (fun y caller hc => by cases hcpu.symm.trans hc)
      (h.quiet (Core.exec_marks s.fresh x c))
  · obtain ⟨diverged', hfollows, hflag⟩ := h.picked hwide x caller hpick
    refine ⟨diverged', hfollows, hflag.trans (or_congr_right ?_)⟩
    exact (and_iff_right ⟨x, caller, hcpu⟩).symm
  · exact hquiet (fun y caller hc => by cases hcpu.symm.trans hc)
      (h.quiet (Or.inl (Core.resume_marks s.fresh k)))

/-- **A whole run**: the flag says whether there has been a missed pick. -/
theorem run (hwide : ∀ tid ∈ script, tid < 2 ^ 32) {s₀ : State}
    (h : Follows script S s₀ false) : ∀ (n : Nat) (s : State), p.run W n s₀ = some s →
    ∃ diverged, Follows script S s diverged ∧ (diverged = true ↔
      ∃ k < n, ∃ t, p.run W k s₀ = some t ∧ t.core.MissedPick script S.core.acts) := by
  refine Exec.drive_induct ⟨false, h, nofun, fun ⟨_, hk, _⟩ => absurd hk (Nat.not_lt_zero _)⟩
    fun n t s ht ih hstep => ?_
  obtain ⟨flag, hF, hflag⟩ := ih
  obtain ⟨flag', hF', hflag'⟩ := hF.step hwide hstep
  refine ⟨flag', hF', hflag'.trans ⟨?_, ?_⟩⟩
  · rintro (hset | hmiss)
    · obtain ⟨k, hk, q⟩ := hflag.mp hset
      exact ⟨k, Nat.lt_succ_of_lt hk, q⟩
    · exact ⟨n, Nat.lt_succ_self n, t, ht, hmiss⟩
  · rintro ⟨k, hk, u, hu, hmiss⟩
    rcases Nat.lt_succ_iff_lt_or_eq.mp hk with hk | rfl
    · exact Or.inl (hflag.mpr ⟨k, hk, u, hu, hmiss⟩)
    · obtain rfl : t = u := Option.some.inj (ht.symm.trans hu)
      exact Or.inr hmiss

end Follows

/-! ## Validated steps -/

namespace ReplayState
variable {r : ReplayState}

/-- `gth_replay_validate_event`, called for these pairs one after the other, returns 1 each time. -/
def validates : ReplayState → List (Nat × Nat) → Bool
  | _, [] => true
  | r, p :: ps =>
    (r.replayValidateEvent p.1 p.2).1 && validates (r.replayValidateEvent p.1 p.2).2 ps

/-- **What is validated** are the next records. -/
theorem validates_iff (ps : List (Nat × Nat)) :
    ∀ r : ReplayState, r.validates ps = true ↔ ps <+: r.rest.map recordPair := by
  induction ps with
  | nil => exact fun r => ⟨fun _ => List.nil_prefix, fun _ => rfl⟩
  | cons p ps ih =>
    intro r
    rw [validates, Bool.and_eq_true, ih, replayValidateEvent]
    cases hpeek : r.replayPeekEvent with
    | none =>
      rw [(peek_none hpeek).1]
      exact ⟨fun h => absurd h.1 Bool.false_ne_true, fun h => nomatch List.prefix_nil.mp h⟩
    | some record =>
      rw [(peek_some hpeek).1, List.map_cons, List.cons_prefix_cons]
      dsimp only
      by_cases hne : recordType record ≠ p.1 ∨ recordTid record ≠ p.2
      · rw [if_pos hne]
        refine ⟨fun h => absurd h.1 Bool.false_ne_true, fun h => ?_⟩
        obtain ⟨rfl, -⟩ := h
        rcases hne with hne | hne <;> exact absurd rfl hne
      · rw [if_neg hne]
        rw [not_or, not_not, not_not] at hne
        exact and_congr_left fun _ => ⟨fun _ => Prod.ext hne.1.symm hne.2.symm, fun _ => rfl⟩

/-- The replay of the records between `RUNTIME_INIT` and `RUNTIME_SHUTDOWN`, with the cursor behind
    the first `q` of them. -/
def between (r : ReplayState) (q : Nat) : ReplayState :=
  let first := r.currentIdx + (r.rest.map recordPair).findIdx
    (fun p => p.1 == EventType.runtimeInit.code) + 1
  { r with currentIdx := first + q, eventCount := first + r.tracePairs.length }

theorem rest_between (r : ReplayState) (q : Nat) :
    (r.between q).rest.map recordPair = r.tracePairs.drop q := by
  generalize hf : (r.rest.map recordPair).findIdx
    (fun p => p.1 == EventType.runtimeInit.code) = f
  have hdrop : (r.rest.map recordPair).dropWhile (fun p => p.1 != EventType.runtimeInit.code)
      = (r.rest.map recordPair).drop f := by
    rw [List.dropWhile_eq_drop_findIdx_not, ← hf]
    simp only [bne, Bool.not_not]
  have hpre : r.tracePairs <+: (r.rest.map recordPair).drop (f + 1) := by
    rw [tracePairs, hdrop, List.drop_drop]
    exact List.takeWhile_prefix _
  have hlen := hpre.length_le
  rw [List.length_drop, List.length_map, rest, List.length_map, List.length_range'] at hlen
  have hrest : (r.between q).rest.map recordPair
      = (((r.rest.map recordPair).drop (f + 1)).take r.tracePairs.length).drop q := by
    have hcursor : (r.between q).currentIdx = r.currentIdx + (f + 1) + q := by
      rw [between, hf, Nat.add_assoc r.currentIdx f 1]
    have hcount : (r.between q).eventCount - (r.between q).currentIdx
        = r.tracePairs.length - q := by
      rw [hcursor, between, hf, Nat.add_assoc r.currentIdx f 1]
      exact Nat.add_sub_add_left _ _ _
    rw [rest, hcount, hcursor, rest]
    rw [← List.map_drop, ← List.map_drop, List.drop_range', ← List.map_take, ← List.map_take,
      List.take_range'_of_length_ge hlen, ← List.map_drop, ← List.map_drop, List.drop_range',
      Nat.mul_one, Nat.mul_one]
    rfl
  rw [hrest, ← List.prefix_iff_eq_take.mp hpre]

end ReplayState

/-- What a step of the run of `p` has to tell: at a pick for which a context-switch record is left,
    the switch by the current thread; otherwise the events of the step. -/
def State.due (W : World) (p : Program) (t : State) : List (Nat × Nat) :=
  match t.core.cpu with
  | .sched _ _ =>
    if t.sub.replay.any (fun r => !r.script.isEmpty)
    then [(EventType.contextSwitch.code, t.core.currentTid % 2 ^ 32)] else []
  | _ => (State.step W t (p.label t)).elim [] fun u => u.core.events.map Event.pair

/-- **A validated step**: with the cursor behind the records of the events so far,
    `gth_replay_validate_event` accepts what the step from `t` has to tell. -/
def State.Validated (W : World) (p : Program) (r : ReplayState) (S t : State) : Prop :=
  (r.between (S.pairsSince t).length).validates (t.due W p) = true

instance (W : World) (p : Program) (r : ReplayState) (S t : State) :
    Decidable (State.Validated W p r S t) := inferInstanceAs (Decidable (_ = true))

theorem append_prefix_iff {α : Type*} {a b c : List α} :
    a ++ b <+: c ↔ a <+: c ∧ b <+: c.drop a.length := by
  constructor
  · rintro ⟨t, rfl⟩
    rw [List.append_assoc, List.drop_left]
    exact ⟨List.prefix_append _ _, List.prefix_append _ _⟩
  · rintro ⟨⟨t, rfl⟩, h⟩
    rw [List.drop_left] at h
    exact (List.prefix_append_right_inj a).mpr h

theorem State.validated_iff {W : World} {p : Program} {r : ReplayState} {S t : State}
    (ht : S.pairsSince t <+: r.tracePairs) :
    Validated W p r S t ↔ S.pairsSince t ++ t.due W p <+: r.tracePairs := by
  rw [Validated, ReplayState.validates_iff, ReplayState.rest_between, append_prefix_iff]
  exact (and_iff_right ht).symm

namespace Follows
variable {W : World} {p : Program} {script : List Tid} {S s t u : State} {diverged : Bool}

theorem flag_eq {diverged' : Bool} (h : Follows script S s diverged)
    (h' : Follows script S s diverged') : diverged = diverged' := by
  obtain ⟨-, -, -, -, -, -, r, hr, -, rfl⟩ := h
  obtain ⟨-, -, -, -, -, -, r', hr', -, rfl⟩ := h'
  rw [Option.some.inj (hr.symm.trans hr')]

/-- **With a clear flag**, a step tells what it has to tell. -/
theorem due (h : Follows script S t false) (hstep : State.step W t (p.label t) = some u)
    (hu : Follows script S u false) : u.core.events.map Event.pair = t.due W p := by
  have hquiet : (∀ x caller, t.core.cpu ≠ .sched x caller) →
      u.core.events.map Event.pair = t.due W p := by
    intro hcpu
    unfold State.due
    split
    · rename_i x caller hc
      exact absurd hc (hcpu x caller)
    · rw [hstep]
      rfl
  rcases State.step_cases hstep with ⟨x, c, hl, -, -⟩ | ⟨x, c, -, hcpu, -, -⟩ |
      ⟨x, caller, pick, sub, -, hcpu, hpick, rfl⟩ | ⟨k, -, hcpu, -⟩
  · exact absurd hl (p.label_ne_sub t x c)
  · exact hquiet fun y caller hc => by cases hcpu.symm.trans hc
  · obtain ⟨-, -, -, -, -, -, r', hr', -, hclear⟩ := hu
    obtain ⟨-, rest, -, -, -, hrep⟩ := h
    obtain ⟨u', hpick', hrep'⟩ := hrep.pick (W := W) t.core.config.policy t.core.threads
    obtain ⟨hp, rfl⟩ := Prod.mk.inj (Option.some.inj (hpick.symm.trans hpick'))
    obtain ⟨-, r, hr, hscript, -⟩ := hrep
    let next := ({ t with sub := sub } : State).settle W (t.fresh.runNext x caller pick)
    have hnext : next.sub.Replaying _ _ := InStep.settle_replaying hrep' _
    obtain ⟨-, r'', hr'', -, hflag⟩ := hnext
    obtain rfl := Option.some.inj (hr'.symm.trans hr'')
    have hdue : t.due W p = if rest.isEmpty then []
        else [(EventType.contextSwitch.code, t.core.currentTid % 2 ^ 32)] := by
      unfold State.due
      rw [hcpu, hr]
      dsimp only
      rw [Option.any_some, hscript]
      cases rest <;> rfl
    rw [hdue]
    cases rest with
    | nil =>
      obtain rfl : pick = none := hp
      show (t.fresh.runNext x caller none).events.map Event.pair = _
      cases caller <;> rfl
    | cons tid rest =>
      cases hfind : replayFindThread t.core.threads tid with
      | none =>
        -- a missed pick would have raised the flag
        rw [followScript, hfind] at hflag
        cases hflag.symm.trans hclear
      | some i =>
        rw [followScript, hfind] at hp
        obtain rfl : pick = some i := hp
        rfl
  · exact hquiet fun y caller hc => by cases hcpu.symm.trans hc

/-- What a step adds to the pairs of a run. -/
theorem pairsSince_step (h : Follows script S t diverged)
    (hstep : State.step W t (p.label t) = some u) :
    S.pairsSince u = S.pairsSince t ++ u.core.events.map Event.pair := by
  obtain ⟨es, -, hes, -⟩ := h
  have hemitted := (State.step_marks (p.label_ne_sub t) hstep).1
  unfold State.pairsSince
  rw [hemitted, hes, List.append_assoc, List.drop_left, List.drop_left, List.map_append]

/-- **A whole run with a clear flag** tells an initial part of what the trace tells, iff every step
    of it is validated. -/
theorem prefix_iff (hwide : ∀ tid ∈ script, tid < 2 ^ 32) {s₀ : State}
    (h : Follows script S s₀ false) (hstart : S.pairsSince s₀ = []) (r : ReplayState) :
    ∀ (n : Nat) (s : State), p.run W n s₀ = some s → Follows script S s false →
      (S.pairsSince s <+: r.tracePairs ↔
        ∀ k < n, ∀ t, p.run W k s₀ = some t → State.Validated W p r S t) := by
  refine Exec.drive_induct (fun _ => ?_) fun n t u ht ih hstep hu => ?_
  · rw [hstart]
    exact ⟨fun _ k hk => absurd hk (Nat.not_lt_zero k), fun _ => List.nil_prefix⟩
  · -- the flag was clear before the step
    obtain ⟨flag, hF, -⟩ := h.run hwide n t ht
    obtain ⟨flag', hF', hflag'⟩ := hF.step hwide hstep
    obtain rfl : flag = false := by
      have hclear := hF'.flag_eq hu
      cases flag with
      | false => rfl
      | true => exact absurd (hflag'.mpr (Or.inl rfl)) (by rw [hclear]; exact Bool.false_ne_true)
    rw [hF.pairsSince_step hstep, hF.due hstep hu]
    constructor
    · intro hpre k hk v hv
      have hpre' := (List.prefix_append _ _).trans hpre
      rcases Nat.lt_succ_iff_lt_or_eq.mp hk with hk | rfl
      · exact (ih hF).mp hpre' k hk v hv
      · obtain rfl : t = v := Option.some.inj (ht.symm.trans hv)
        exact (State.validated_iff hpre').mpr hpre
    · intro hall
      have hpre := (ih hF).mpr fun k hk => hall k (Nat.lt_succ_of_lt hk)
      exact (State.validated_iff hpre).mp (hall n (Nat.lt_succ_self n) t ht)

end Follows

/-! ## Threads that are left over -/

/-- Every thread the trace tells of has ended in it. -/
def ReplayState.Ends (r : ReplayState) : Prop :=
  ∀ q ∈ r.tracePairs, aliveAfter r.tracePairs q.2 = false

instance (r : ReplayState) : Decidable r.Ends := inferInstanceAs (Decidable (∀ q ∈ _, _ = false))

/-- **The events of a run** that starts without threads show who is `READY` or `BLOCKED` at its
    end. -/
theorem Program.run_heard {W : World} {p : Program} (hp : p.JoinsFromMain) {S : State}
    (hwf : S.core.WF) (hempty : ∀ i, (S.core.threads i).state = .empty) :
    ∀ (n : Nat) (s : State), p.run W n S = some s → s.core.issued < 2 ^ 32 →
      s.core.WF ∧ ∃ es, s.emitted = S.emitted ++ es ∧ Heard es s.fresh.view := by
  refine Exec.drive_induct (fun _ => ⟨hwf, [], (List.append_nil _).symm, ?_⟩)
    fun n t u _ ih hstep hlt => ?_
  · refine ⟨⟨fun i hi => absurd (hempty i) hi, fun i _ hi => absurd (hempty i) hi⟩,
      fun i hi => ?_⟩
    rw [show (S.fresh.view.threads i).state = _ from hempty i] at hi
    rcases hi with hi | hi <;> cases hi
  · have hle := State.step_issued hstep
    obtain ⟨htwf, es, hes, hheard⟩ := ih (Nat.lt_of_le_of_lt hle hlt)
    have hjoin := Program.label_joinsFromMain hp t
    have hahead : Ahead [p.label t] t := by
      refine ⟨htwf, fun l hl => List.mem_singleton.mp hl ▸ hjoin, ?_⟩
      have hone : creates [p.label t] ≤ 1 := List.countP_le_length
      omega
    obtain ⟨w, hturns, hview, hemitted⟩ := hahead.turns True (fun _ _ _ _ => trivial) hstep
    have hissued : w.issued = u.core.issued := (congrArg View.issued hview).symm
    refine ⟨(hahead.step hstep).wf, es ++ w.events, ?_, ?_⟩
    · rw [hemitted, hes, List.append_assoc]
    · rw [hview]
      exact (hheard.turns (by rw [hissued]; exact hlt) hturns).close

/-! ## Soundness of the flag -/

/-- A trace is loaded with a clear flag. -/
theorem Sub.replayInit_loaded {W : World} {u u' : Sub} {initialized : Bool} {path : Option Path}
    (h : u.replayInit W initialized path = (.ok, u')) :
    ∃ r, u'.replay = some r ∧ r.diverged = false := by
  unfold Sub.replayInit at h
  split at h
  · nomatch (Prod.mk.inj h).1
  · split at h
    · nomatch (Prod.mk.inj h).1
    · nomatch (Prod.mk.inj h).1
    · split at h
      · nomatch (Prod.mk.inj h).1
      · split at h
        · nomatch (Prod.mk.inj h).1
        · rename_i data v _
          dsimp only [Sub.ask] at h
          split at h
          · nomatch (Prod.mk.inj h).1
          · split at h
            · nomatch (Prod.mk.inj h).1
            · exact ⟨_, congrArg Sub.replay (Prod.mk.inj h).2.symm, rfl⟩

theorem State.startReplay_follows {W : World} {S : State} {path : Path}
    (h : (S.subExec W (.replayFrom (some path))).1 = .ok) :
    ∃ r, (S.startReplay W path).sub.replay = some r ∧
      Follows r.script S (S.startReplay W path) false := by
  obtain ⟨u, hu⟩ : ∃ u, S.sub.replayInit W S.core.initialized (some path) = (.ok, u) := by
    have hok : (S.sub.replayFrom W S.core.initialized (some path)).1 = .ok := h
    unfold Sub.replayFrom at hok
    split at hok
    · exact ⟨_, ‹_›⟩
    · rename_i hne _
      exact absurd hok hne
  obtain ⟨r, hr, hdiv⟩ := Sub.replayInit_loaded hu
  have hsub : (S.startReplay W path).sub = { u with mode := .replay, traceEnabled := false } := by
    show (S.sub.replayFrom W S.core.initialized (some path)).2 = _
    rw [Sub.replayFrom, hu]
  refine ⟨r, by rw [hsub]; exact hr, [], r.script, (List.append_nil _).symm, rfl, rfl, ?_⟩
  rw [hsub]
  exact ⟨rfl, r, hr, rfl, hdiv⟩

/-- The first `n` steps of the replay of `p` are validated, and they use up the trace. -/
def ValidatedReplay (W : World) (p : Program) (path : Path) (S : State) (r : ReplayState) (n : Nat)
    (s : State) : Prop :=
  (∀ k < n, ∀ t, p.run W k (S.startReplay W path) = some t → State.Validated W p r S t) ∧
    r.tracePairs.length ≤ (S.pairsSince s).length

/-- **When the flag is sound**: for every accepted trace `r`, every program and every point of its
    replay, the dispatches are the first ones of the trace, and the flag is raised iff there has been
    a missed pick.  As long as it is clear, all events of the run are those of the trace iff the
    replay is validated.  A validated replay that starts without threads, on a trace in which every
    thread ends, has the flag raised if it has a `READY` thread at the end. -/
theorem divergence_sound_iff {W : World} {p : Program} {path : Path} {S s : State} {n : Nat}
    {r : ReplayState} (hload : (S.subExec W (.replayFrom (some path))).1 = .ok)
    (hr : (S.startReplay W path).sub.replay = some r)
    (hrun : p.run W n (S.startReplay W path) = some s) :
    ∃ r', s.sub.replay = some r' ∧
      eventTids (s.emitted.drop S.emitted.length) <+: r.script ∧
      (r'.diverged = true ↔ ∃ k < n, ∃ t, p.run W k (S.startReplay W path) = some t ∧
        t.core.MissedPick r.script S.core.acts) ∧
      (r'.diverged = false →
        (S.pairsSince s = r.tracePairs ↔ ValidatedReplay W p path S r n s)) ∧
      (ValidatedReplay W p path S r n s → r.Ends → p.JoinsFromMain → S.Reached W →
        (∀ i, (S.core.threads i).state = .empty) → s.core.issued < 2 ^ 32 →
        (∃ i, (s.core.threads i).state = .ready) → r'.diverged = true) := by
  obtain ⟨r₀, hr₀, hF⟩ := State.startReplay_follows hload
  obtain rfl : r = r₀ := Option.some.inj (hr.symm.trans hr₀)
  obtain ⟨flag, hFs, hflag⟩ := hF.run r.script_lt n s hrun
  have hstart : S.pairsSince (S.startReplay W path) = [] := by
    show (S.emitted.drop S.emitted.length).map Event.pair = []
    rw [List.drop_length, List.map_nil]
  have hsound : flag = false →
      (S.pairsSince s = r.tracePairs ↔ ValidatedReplay W p path S r n s) := by
    rintro rfl
    rw [ValidatedReplay, ← hF.prefix_iff r.script_lt hstart r n s hrun hFs]
    exact ⟨fun heq => heq ▸ ⟨List.prefix_refl _, Nat.le_refl _⟩,
      fun ⟨hpre, hle⟩ => hpre.eq_of_length_le hle⟩
  obtain ⟨es, rest, hes, -, hscript, -, r', hr', -, rfl⟩ := hFs
  refine ⟨r', hr', ⟨rest, ?_⟩, hflag, hsound, ?_⟩
  · rw [hes, List.drop_left, hscript]
  · intro hval hends hp hreached hempty hissued hready
    by_contra hclear
    obtain ⟨i, hi⟩ := hready
    have hpairs := (hsound (Bool.eq_false_iff.mpr hclear)).mpr hval
    -- the events of the run show the thread as alive, those of the trace do not
    obtain ⟨config, pageSize, files, ls, hjoin, hls⟩ := hreached
    obtain ⟨-, -, -, hle⟩ := InStep.run_future hrun
    have hwf := State.reach_wf_of_issued hls hjoin (Nat.lt_of_le_of_lt hle hissued)
    obtain ⟨-, es', hes', hheard⟩ := Program.run_heard hp (S := S.startReplay W path) hwf hempty n s
      hrun hissued
    have halive := hheard.alive i (Or.inl hi)
    rw [show s.fresh.view.events = [] from rfl, List.append_nil] at halive
    have hsame : es'.map Event.pair = r.tracePairs := by
      rw [← hpairs, State.pairsSince, hes']
      show _ = ((S.emitted ++ es').drop S.emitted.length).map Event.pair
      rw [List.drop_left]
    rw [hsame] at halive
    obtain ⟨q, hq, htid⟩ := mem_of_aliveAfter halive
    rw [← htid, hends q hq] at halive
    exact Bool.false_ne_true halive

namespace Sample

/-- Main makes the calls `calls`; its thread locks and unlocks the mutex at address 8, and ends. -/
def lockingProgram (calls : List Call) : Program
  | .main, h => program calls .main h
  | .green _, h => [Call.mutexLock 8, .mutexUnlock 8].getD
      (h.countP fun o => match o with | .ret 1 _ _ => true | _ => false) (.exit 5)

/-- A check of the end of a replay of `p` on a trace of `program calls`. -/
theorem replayed (calls : List Call) {m n : Nat} {p : Program}
    (check : State → ReplayState → State → Bool)
    (h : (trace calls m).any (fun f =>
      decide (((startWith f.2).subExec world (.replayFrom (some [116]))).1 = .ok) &&
      ((startWith f.2).startReplay world [116]).sub.replay.any fun r =>
        (p.run world n ((startWith f.2).startReplay world [116])).any fun s =>
          check (startWith f.2) r s) = true) :
    ∃ T file r s, trace calls m = some (T, file) ∧
      ((startWith file).subExec world (.replayFrom (some [116]))).1 = .ok ∧
      ((startWith file).startReplay world [116]).sub.replay = some r ∧
      p.run world n ((startWith file).startReplay world [116]) = some s ∧
      check (startWith file) r s = true := by
  obtain ⟨⟨T, file⟩, hf, h⟩ := (Option.any_eq_true _ _).mp h
  obtain ⟨hok, h⟩ := Bool.and_eq_true_iff.mp h
  obtain ⟨r, hr, h⟩ := (Option.any_eq_true _ _).mp h
  obtain ⟨s, hs, h⟩ := (Option.any_eq_true _ _).mp h
  exact ⟨T, file, r, s, hf, of_decide_eq_true hok, hr, hs, h⟩

end Sample

instance (W : World) (p : Program) (path : Path) (S : State) (r : ReplayState) (n : Nat)
    (s : State) : Decidable (ValidatedReplay W p path S r n s) :=
  have : ∀ k, Decidable (∀ t, p.run W k (S.startReplay W path) = some t →
      State.Validated W p r S t) := fun k =>
    Exec.decideNext (P := fun t => State.Validated W p r S t) (p.run W k (S.startReplay W path))
  inferInstanceAs (Decidable (_ ∧ _))

/-- Non-vacuous: the recorded program is replayed. -/
theorem divergence_sound_same : ∃ file r s r',
    ((Sample.startWith file).subExec Sample.world (.replayFrom (some [116]))).1 = .ok ∧
    ((Sample.startWith file).startReplay Sample.world [116]).sub.replay = some r ∧
    (Sample.program [Sample.create, .yield]).run Sample.world 6
      ((Sample.startWith file).startReplay Sample.world [116]) = some s ∧
    s.sub.replay = some r' ∧ r'.diverged = false ∧
    (Sample.startWith file).pairsSince s = r.tracePairs ∧
    r.tracePairs.length = 3 ∧ ∀ i, (s.core.threads i).state ≠ .ready := by
  obtain ⟨T, file, r, s, -, hok, hr, hs, hcheck⟩ := Sample.replayed
    [Sample.create, .yield] (m := 6) (n := 6) (p := Sample.program [Sample.create, .yield])
    (fun S r s => decide (ValidatedReplay Sample.world (Sample.program [Sample.create, .yield])
      [116] S r 6 s ∧ r.Ends ∧ r.tracePairs.length = 3 ∧ s.core.issued < 2 ^ 32 ∧
      s.sub.replay.any fun r' => !r'.diverged)) (by decide +kernel)
  obtain ⟨hval, hends, hlen, hissued, hclear⟩ := of_decide_eq_true hcheck
  obtain ⟨r', hr', -, -, hiff, hready⟩ := divergence_sound_iff hok hr hs
  rw [hr', Option.any_some, Bool.not_eq_true'] at hclear
  refine ⟨file, r, s, r', hok, hr, hs, hr', hclear, (hiff hclear).mpr hval, hlen, fun i hi => ?_⟩
  have hset := hready hval hends (Sample.program_joinsFromMain _)
    ⟨Sample.config, 4096#64, _, [], nofun, rfl⟩ (fun _ => rfl) hissued ⟨i, hi⟩
  exact Bool.false_ne_true (hclear.symm.trans hset)

/-- **Operations that go unnoticed**: the recorded thread ends at once, and the replayed one locks
    and unlocks a mutex before.  The replay runs to the end of the trace and of the program, the
    events of the run are not those of the trace, and the flag is clear.  It is also clear when the
    replayed program creates a second thread, which is still `READY` when the trace is used up. -/
theorem locking_goes_unnoticed :
    (∃ T file r s, Sample.trace [Sample.create, .yield] 6 = some (T, file) ∧
      ((Sample.startWith file).subExec Sample.world (.replayFrom (some [116]))).1 = .ok ∧
      ((Sample.startWith file).startReplay Sample.world [116]).sub.replay = some r ∧
      (Sample.lockingProgram [.mutexInit 8, Sample.create, .yield, .join 1 true, .yield]).run
        Sample.world 12 ((Sample.startWith file).startReplay Sample.world [116]) = some s ∧
      (∀ i, (s.core.threads i).state = .empty) ∧
      (Sample.startWith file).pairsSince s ≠ r.tracePairs ∧
      ∃ r', s.sub.replay = some r' ∧ r'.currentIdx = r'.eventCount ∧ r'.diverged = false) ∧
    (∃ T file s, Sample.trace [Sample.create, .yield] 6 = some (T, file) ∧
      ((Sample.startWith file).subExec Sample.world (.replayFrom (some [116]))).1 = .ok ∧
      (Sample.program [Sample.create, Sample.create, .yield, .yield]).run Sample.world 9
        ((Sample.startWith file).startReplay Sample.world [116]) = some s ∧
      (s.core.threads 1).state = .ready ∧
      ∃ r', s.sub.replay = some r' ∧ r'.currentIdx = r'.eventCount ∧ r'.diverged = false) := by
  constructor
  · obtain ⟨T, file, r, s, htrace, hok, hr, hs, hend⟩ := Sample.replayed
      [Sample.create, .yield] (m := 6) (n := 12)
      (p := Sample.lockingProgram [.mutexInit 8, Sample.create, .yield, .join 1 true, .yield])
      (fun S r s => decide ((∀ i, (s.core.threads i).state = .empty) ∧
        S.pairsSince s ≠ r.tracePairs) && s.sub.replay.any fun (r' : ReplayState) =>
          decide (r'.currentIdx = r'.eventCount ∧ r'.diverged = false)) (by decide +kernel)
    obtain ⟨hends, hflag⟩ := Bool.and_eq_true_iff.mp hend
    obtain ⟨r', hr', hclear⟩ := (Option.any_eq_true _ _).mp hflag
    obtain ⟨hempty, hne⟩ := of_decide_eq_true hends
    exact ⟨T, file, r, s, htrace, hok, hr, hs, hempty, hne, r', hr', of_decide_eq_true hclear⟩
  · obtain ⟨T, file, r, s, htrace, hok, -, hs, hend⟩ := Sample.replayed
      [Sample.create, .yield] (m := 6) (n := 9)
      (p := Sample.program [Sample.create, Sample.create, .yield, .yield])
      (fun _ _ s => decide ((s.core.threads 1).state = .ready) &&
        s.sub.replay.any fun (r' : ReplayState) =>
          decide (r'.currentIdx = r'.eventCount ∧ r'.diverged = false)) (by decide +kernel)
    obtain ⟨hready, hflag⟩ := Bool.and_eq_true_iff.mp hend
    obtain ⟨r', hr', hclear⟩ := (Option.any_eq_true _ _).mp hflag
    exact ⟨T, file, s, htrace, hok, hs, of_decide_eq_true hready, r', hr',
      of_decide_eq_true hclear⟩

end Gth

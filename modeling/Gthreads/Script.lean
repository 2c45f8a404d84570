/-
  Replay follows a script.

  To the scheduler, a loaded trace is a list of tids: those its context-switch records, from the
  cursor on, switch to.  All that `gth_replay_next_thread` does, the reading of bytes and the
  skipping of other records included, is to look at the first tid of this list: if the thread is
  runnable, it is picked and the tid is consumed; if not, the replay has diverged, nothing is
  picked, and the tid stays where it is (`followScript`, `replayNextThread_eq`).
-/
import Gthreads.RoundTrip
import Gthreads.Switches
import Gthreads.Table

namespace Gth

/-! ## The script -/

def isSwitchRecord (record : List UInt8) : Bool :=
  recordType record == EventType.contextSwitch.code

/-- The `to_tid` of a context-switch record. -/
def recordToTid (record : List UInt8) : Tid := recordData record % 2 ^ 32

/-- The tids that the context-switch records of a trace switch to. -/
def switchTids (records : List (List UInt8)) : List Tid :=
  (records.filter isSwitchRecord).map recordToTid

/-- **What replay does**: the pick, the script that is left, and whether it has diverged. -/
def followScript (threads : Slot → ThreadRecord) (script : List Tid) (diverged : Bool) :
    Option Slot × List Tid × Bool :=
  match script with
  | [] => (none, [], diverged)
  | tid :: rest => match replayFindThread threads tid with
    | none => (none, tid :: rest, true)
    | some i => (some i, rest, diverged)

namespace ReplayState
variable {r : ReplayState}

/-- The tids to dispatch from the cursor on. -/
def script (r : ReplayState) : List Tid := switchTids r.rest

theorem script_of_switch {record : List UInt8} (h : r.replayPeekEvent = some record)
    (hs : isSwitchRecord record = true) :
    r.script = recordToTid record :: r.replayNextEvent.2.script := by
  rw [script, (peek_some h).1, switchTids, List.filter_cons_of_pos hs]
  rfl

/-- Other records do not belong to the script, so they are skipped without loss. -/
theorem skipEvents_spec : ∀ (fuel : Nat) (r : ReplayState), r.rest.length ≤ fuel →
    (r.skipEvents fuel).script = r.script ∧ (r.skipEvents fuel).diverged = r.diverged ∧
      ∀ record, (r.skipEvents fuel).replayPeekEvent = some record → isSwitchRecord record = true := by
  intro fuel
  induction fuel with
  | zero =>
    intro r hr
    refine ⟨rfl, rfl, fun record hp => ?_⟩
    have hrest := (peek_some (r := r) hp).1
    rw [hrest] at hr
    exact absurd hr (Nat.not_succ_le_zero _)
  | succ fuel ih =>
    intro r hr
    unfold skipEvents
    cases hp : r.replayPeekEvent with
    | none => exact ⟨rfl, rfl, fun record h => nomatch hp.symm.trans h⟩
    | some record =>
      dsimp only
      by_cases hs : recordType record = EventType.contextSwitch.code
      · rw [if_pos hs]
        refine ⟨rfl, rfl, fun record' h => ?_⟩
        obtain rfl := Option.some.inj (hp.symm.trans h)
        exact beq_iff_eq.mpr hs
      · rw [if_neg hs]
        obtain ⟨hrest, -, hdiv⟩ := peek_some hp
        obtain ⟨hscript, hdiv', hpeek⟩ := ih r.replayNextEvent.2 (by
          rw [hrest] at hr
          exact Nat.le_of_succ_le_succ hr)
        refine ⟨hscript.trans ?_, hdiv'.trans hdiv, hpeek⟩
        rw [script, script, hrest, switchTids, switchTids,
          List.filter_cons_of_neg (by rw [isSwitchRecord, beq_iff_eq]; exact hs)]

theorem length_rest (r : ReplayState) : r.rest.length = r.eventCount - r.currentIdx := by
  rw [rest, List.length_map, List.length_range']

end ReplayState

/-- **`gth_replay_next_thread` follows the script.** -/
theorem replayNextThread_eq (threads : Slot → ThreadRecord) (r : ReplayState) :
    ((replayNextThread threads r).1, (replayNextThread threads r).2.script,
      (replayNextThread threads r).2.diverged) = followScript threads r.script r.diverged := by
  obtain ⟨hscript, hdiv, hpeek⟩ := ReplayState.skipEvents_spec (r.eventCount - r.currentIdx) r
    (Nat.le_of_eq r.length_rest)
  unfold replayNextThread
  dsimp only
  generalize r.skipEvents (r.eventCount - r.currentIdx) = q at hscript hdiv hpeek ⊢
  rw [← hscript, ← hdiv]
  cases hp : q.replayPeekEvent with
  | none =>
    have hnil : q.script = [] := by rw [ReplayState.script, (ReplayState.peek_none hp).1]; rfl
    dsimp only
    rw [hnil]
    rfl
  | some record =>
    have hs := hpeek record hp
    have hcode : recordType record = EventType.contextSwitch.code := beq_iff_eq.mp hs
    have hq := ReplayState.script_of_switch hp hs
    dsimp only
    rw [if_neg (not_not_intro hcode), hq, followScript]
    show _ = match replayFindThread threads (recordData record % 2 ^ 32) with
      | none => _
      | some i => _
    cases hf : replayFindThread threads (recordData record % 2 ^ 32) with
    | none => exact Prod.ext rfl (Prod.ext hq rfl)
    | some i => exact Prod.ext rfl (Prod.ext rfl (ReplayState.peek_some hp).2.2)

/-! ## Replay mode -/

namespace Sub
variable {W : World} {u : Sub} {script : List Tid} {diverged : Bool}

/-- The scheduler follows `script`. -/
def Replaying (u : Sub) (script : List Tid) (diverged : Bool) : Prop :=
  u.mode = .replay ∧ ∃ r, u.replay = some r ∧ r.script = script ∧ r.diverged = diverged

/-- In replay mode nothing is recorded. -/
theorem Replaying.record (h : u.Replaying script diverged) (es : List Event) :
    es.foldl (fun u e => u.traceRecord W e) u = u := by
  induction es with
  | nil => rfl
  | cons e es ih =>
    rw [List.foldl_cons, traceRecord_of_replay W h.1]
    exact ih

/-- **In replay mode the pick is that of the script.** -/
theorem Replaying.pick (h : u.Replaying script diverged) (policy : Policy)
    (threads : Slot → ThreadRecord) :
    ∃ u', u.pickReadyThreadMode W policy threads
        = some ((followScript threads script diverged).1, u') ∧
      u'.Replaying (followScript threads script diverged).2.1
        (followScript threads script diverged).2.2 := by
  obtain ⟨hmode, r, hr, rfl, rfl⟩ := h
  have heq := replayNextThread_eq threads r
  refine ⟨{ u with replay := some (replayNextThread threads r).2 }, ?_, hmode, _, rfl,
    congrArg (fun t => t.2.1) heq, congrArg (fun t => t.2.2) heq⟩
  rw [pickReadyThreadMode, hmode, hr]
  exact congrArg (fun p => some (p, _)) (congrArg Prod.fst heq)

end Sub

/-- When no thread is runnable, the script does not move; it diverges unless it is at its end. -/
theorem followScript_idle {threads : Slot → ThreadRecord}
    (h : ∀ i, (threads i).state ≠ .ready ∧ (threads i).state ≠ .running) (script : List Tid)
    (diverged : Bool) :
    followScript threads script diverged = (none, script, diverged || !script.isEmpty) := by
  cases script with
  | nil => exact Prod.ext rfl (Prod.ext rfl (Bool.or_false _).symm)
  | cons tid rest =>
    have hnone : replayFindThread threads tid = none := by
      cases hf : replayFindThread threads tid with
      | none => rfl
      | some i =>
        rcases replayFindThread_state hf with hi | hi
        · exact absurd hi (h i).1
        · exact absurd hi (h i).2
    rw [followScript, hnone]
    exact Prod.ext rfl (Prod.ext rfl (Bool.or_true _).symm)

/-- A script that names a `READY` thread next dispatches it. -/
theorem followScript_ready {nextTid issued : Nat} {threads : Slot → ThreadRecord}
    (ht : TidsOk nextTid issued threads) {i : Slot} (hi : (threads i).state = .ready)
    (rest : List Tid) (diverged : Bool) :
    followScript threads ((threads i).tid :: rest) diverged = (some i, rest, diverged) := by
  have hne : (threads i).state ≠ .empty := by
    rw [hi]
    nofun
  have hfind : replayFindThread threads (threads i).tid = some i := by
    rw [replayFindThread, if_neg (Nat.one_le_iff_ne_zero.mp (ht.range i hne).1), ht.find hne]
    exact if_neg fun h => h.1 hi
  rw [followScript, hfind]

/-! ## The steps of a run -/

/-- **One step that is not a call of the trace and mode interface** records its events, takes tids,
    and counts its switches. -/
theorem State.step_marks {W : World} {s t : State} {l : Label} (hl : ∀ x c, l ≠ .sub x c)
    (h : State.step W s l = some t) :
    t.emitted = s.emitted ++ t.core.events ∧ s.core.issued ≤ t.core.issued ∧
      t.core.acts = s.core.acts + (t.core.events.filter Event.isSwitch).length := by
  have hplain : ∀ c : Core, c.marks = s.fresh.marks ∨ c.marks
      = (s.fresh.events.filter Event.isSwitch, s.fresh.acts, s.fresh.issued + 1) →
      s.core.issued ≤ c.issued ∧ c.acts = s.core.acts + (c.events.filter Event.isSwitch).length := by
    rintro c (hc | hc)
    · obtain ⟨hev, hrest⟩ := Prod.mk.inj hc
      obtain ⟨hacts, hissued⟩ := Prod.mk.inj hrest
      exact ⟨Nat.le_of_eq hissued.symm, by rw [hev]; exact hacts⟩
    · obtain ⟨hev, hrest⟩ := Prod.mk.inj hc
      obtain ⟨hacts, hissued⟩ := Prod.mk.inj hrest
      exact ⟨by rw [hissued]; exact Nat.le_succ _, by rw [hev]; exact hacts⟩
  rcases State.step_cases h with ⟨x, c, rfl, -, rfl⟩ | ⟨x, c, -, -, -, rfl⟩ |
      ⟨x, caller, pick, sub, -, -, -, rfl⟩ | ⟨k, -, -, rfl⟩
  · exact absurd rfl (hl x c)
  · exact ⟨rfl, hplain _ (Core.exec_marks s.fresh x c)⟩
  · refine ⟨rfl, ?_⟩
    have hmarks := Core.runNext_marks s.fresh x caller pick
    cases pick with
    | none => exact hplain _ (Or.inl hmarks)
    | some i =>
      obtain ⟨hev, hrest⟩ := Prod.mk.inj hmarks
      obtain ⟨hacts, hissued⟩ := Prod.mk.inj hrest
      refine ⟨Nat.le_of_eq hissued.symm, hacts.trans ?_⟩
      exact congrArg (fun es => s.core.acts + es.length) hev.symm
  · exact ⟨rfl, hplain _ (Or.inl (Core.resume_marks s.fresh k))⟩

/-- Tids are taken, never given back. -/
theorem State.step_issued {W : World} {s t : State} {l : Label} (h : State.step W s l = some t) :
    s.core.issued ≤ t.core.issued := by
  cases l with
  | sub x c =>
    rcases step_cases h with ⟨x', c', -, -, rfl⟩ | ⟨_, _, hl, _⟩ | ⟨_, _, _, _, hl, _⟩ | ⟨_, hl, _⟩
    · exact Nat.le_refl _
    · nomatch hl
    · nomatch hl
    · nomatch hl
  | call x c => exact (step_marks (l := .call x c) nofun h).2.1
  | tau => exact (step_marks (l := .tau) nofun h).2.1

/-! ## Programs -/

/-- A deterministic program: the call that the code on stack `x` makes next, given everything that
    has happened so far; in particular the results of all earlier calls. -/
def Program := Ctx → List Obs → Call

namespace Program
variable {W : World} {s t : State}

/-- The step that comes next: the program's next call, or the runtime goes on. -/
def label (p : Program) (s : State) : Label := match s.core.cpu with
  | .user x => .call x (p x s.core.hist)
  | _ => .tau

/-- The state after `n` steps of the program. -/
abbrev run (W : World) (p : Program) (n : Nat) (s : State) : Option State :=
  Exec.drive (State.step W) p.label n s

/-- The next step is a matter of the core alone. -/
theorem label_congr (p : Program) (h : t.core = s.core) : p.label t = p.label s := by
  rw [label, label, h]

/-- A program leaves trace and modes alone. -/
theorem label_ne_sub (p : Program) (s : State) (x : Ctx) (c : SubCall) : p.label s ≠ .sub x c := by
  unfold label
  split <;> nofun

end Program
end Gth

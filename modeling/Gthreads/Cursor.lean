/-
  The replay cursor.

  Every access to a loaded trace goes through the record at the cursor: `gth_replay_peek_event` looks
  at it, `gth_replay_next_event` also moves past it.  The other functions are sequences of these
  two.  They are written once more as code that logs what the two return (`CursorM`); without the
  log it computes what the model of the functions computes (`CursorM.Erases`), so its log says what
  they read.  What the code does to the cursor is put together from what the two do
  (`CursorM.Safe.bind`), and holds for any sequence of calls.

  The loop of `gth_replay_next_thread` ends because each iteration takes a record
  (`ReplayState.skipEvents_loop`), and it ends on the first context-switch record
  (`ReplayState.skipEvents_first`).
-/
import Gthreads.Script
import Gthreads.Tamper

namespace Gth

namespace ReplayState

theorem peek_eq_none {r : ReplayState} (h : r.eventCount ≤ r.currentIdx) :
    r.replayPeekEvent = none := if_pos h

theorem peek_eq_some {r : ReplayState} (h : r.currentIdx < r.eventCount) :
    r.replayPeekEvent = some (recordAt r.events r.currentIdx) := if_neg (Nat.not_le_of_lt h)

end ReplayState

/-! ## Accesses -/

/-- A record that was read: its number, what was returned, and whether the cursor moved past it. -/
structure Access where
  index : Nat
  record : List UInt8
  taken : Bool
  deriving DecidableEq

/-- **How the cursor moves**: forward over records that it takes one after the other; what is read
    are records of the trace. -/
structure Moves (r t : ReplayState) (as : List Access) : Prop where
  events : t.events = r.events
  eventCount : t.eventCount = r.eventCount
  forward : r.currentIdx ≤ t.currentIdx
  bounded : r.currentIdx ≤ r.eventCount → t.currentIdx ≤ r.eventCount
  records : ∀ a ∈ as, a.index < r.eventCount ∧ a.record = recordAt r.events a.index
  taken : (as.filter Access.taken).map Access.index
    = List.range' r.currentIdx (t.currentIdx - r.currentIdx)

namespace Moves
variable {r t u : ReplayState} {as bs : List Access}

theorem trans (h : Moves r t as) (h' : Moves t u bs) : Moves r u (as ++ bs) := by
  have hf := h.forward
  have hf' := h'.forward
  refine ⟨h'.events.trans h.events, h'.eventCount.trans h.eventCount, by omega, fun hr => ?_,
    fun a ha => ?_, ?_⟩
  · have hb := h'.bounded
    rw [h.eventCount] at hb
    exact hb (h.bounded hr)
  · rcases List.mem_append.mp ha with ha | ha
    · exact h.records a ha
    · rw [← h.eventCount, ← h.events]
      exact h'.records a ha
  · have happ := List.range'_append_1 (s := r.currentIdx) (m := t.currentIdx - r.currentIdx)
      (n := u.currentIdx - t.currentIdx)
    rw [show r.currentIdx + (t.currentIdx - r.currentIdx) = t.currentIdx by omega] at happ
    rw [List.filter_append, List.map_append, h.taken, h'.taken, happ]
    congr 1
    omega

theorem still (r : ReplayState) : Moves r r [] :=
  ⟨rfl, rfl, Nat.le_refl _, id, nofun, by rw [Nat.sub_self]; rfl⟩

theorem markDiverged (r : ReplayState) : Moves r r.replayMarkDiverged [] :=
  ⟨rfl, rfl, Nat.le_refl _, id, nofun, by
    show _ = List.range' r.currentIdx (r.currentIdx - r.currentIdx)
    rw [Nat.sub_self]
    rfl⟩

/-- A peek. -/
theorem look (h : r.currentIdx < r.eventCount) :
    Moves r r [⟨r.currentIdx, recordAt r.events r.currentIdx, false⟩] := by
  refine ⟨rfl, rfl, Nat.le_refl _, id, fun a ha => ?_, by rw [Nat.sub_self]; rfl⟩
  obtain rfl := List.mem_singleton.mp ha
  exact ⟨h, rfl⟩

/-- `gth_replay_next_event`. -/
theorem take (h : r.currentIdx < r.eventCount) :
    Moves r r.replayNextEvent.2 [⟨r.currentIdx, recordAt r.events r.currentIdx, true⟩] := by
  have hnext : r.replayNextEvent.2 = { r with
      lastTimestamp := recordTimestamp (recordAt r.events r.currentIdx),
      currentIdx := r.currentIdx + 1 } := by
    rw [ReplayState.replayNextEvent, ReplayState.peek_eq_some h]
  rw [hnext]
  refine ⟨rfl, rfl, Nat.le_succ _, fun _ => h, fun a ha => ?_, ?_⟩
  · obtain rfl := List.mem_singleton.mp ha
    exact ⟨h, rfl⟩
  · show _ = List.range' r.currentIdx (r.currentIdx + 1 - r.currentIdx)
    rw [Nat.add_sub_cancel_left]
    rfl

end Moves

/-- Code that uses a loaded trace and logs its accesses, the newest last. -/
abbrev CursorM := StateM (ReplayState × List Access)

namespace CursorM
variable {α β : Type}

/-- `f`, with the record it returns logged. -/
def logged (taken : Bool) (f : ReplayState → Option (List UInt8) × ReplayState) :
    CursorM (Option (List UInt8)) := fun (r, as) =>
  ((f r).1, (f r).2, as ++ ((f r).1.map fun record => ⟨r.currentIdx, record, taken⟩).toList)

def peekEvent : CursorM (Option (List UInt8)) := logged false fun r => (r.replayPeekEvent, r)

def nextEvent : CursorM (Option (List UInt8)) := logged true ReplayState.replayNextEvent

def markDiverged : CursorM Unit := fun (r, as) => ((), r.replayMarkDiverged, as)

/-- The loop of `gth_replay_next_thread`. -/
def skipEvents : Nat → CursorM Unit
  | 0 => pure ()
  | fuel + 1 => do
    match ← peekEvent with
    | none => pure ()
    | some record =>
      if recordType record = EventType.contextSwitch.code then pure ()
      else
        let _ ← nextEvent
        skipEvents fuel

/-- `gth_replay_next_thread`. -/
def nextThread (threads : Slot → ThreadRecord) : CursorM (Option Slot) := do
  let (r, _) ← get
  skipEvents (r.eventCount - r.currentIdx)
  match ← peekEvent with
  | none => pure none
  | some record =>
    if recordType record ≠ EventType.contextSwitch.code then pure none
    else match replayFindThread threads (recordData record % 2 ^ 32) with
      | none => do
        markDiverged
        pure none
      | some i => do
        let _ ← nextEvent
        pure (some i)

/-- `gth_replay_validate_event`. -/
def validateEvent (expectedType : Nat) (tid : Tid) : CursorM Bool := do
  match ← peekEvent with
  | none => do
    markDiverged
    pure false
  | some record =>
    if recordType record ≠ expectedType ∨ recordTid record ≠ tid then do
      markDiverged
      pure false
    else do
      let _ ← nextEvent
      pure true

/-! ## Erasure -/

/-- Without the log, the code computes `f`. -/
def Erases (m : CursorM α) (f : ReplayState → α × ReplayState) : Prop :=
  ∀ r as, ((m (r, as)).1, (m (r, as)).2.1) = f r

theorem bind_run (m : CursorM α) (k : α → CursorM β) (x : ReplayState × List Access) :
    (m >>= k) x = k (m x).1 (m x).2 := rfl

theorem peekEvent_none {r : ReplayState} (h : r.replayPeekEvent = none) (as : List Access) :
    peekEvent (r, as) = (none, r, as) := by
  simp [peekEvent, logged, h]

theorem peekEvent_some {r : ReplayState} {record : List UInt8}
    (h : r.replayPeekEvent = some record) (as : List Access) :
    peekEvent (r, as) = (some record, r, as ++ [⟨r.currentIdx, record, false⟩]) := by
  simp [peekEvent, logged, h]

theorem nextEvent_erases : Erases nextEvent ReplayState.replayNextEvent := fun _ _ => rfl

theorem skipEvents_erases (fuel : Nat) :
    Erases (skipEvents fuel) fun r => ((), r.skipEvents fuel) := by
  induction fuel with
  | zero => exact fun r as => rfl
  | succ fuel ih =>
    intro r as
    unfold skipEvents ReplayState.skipEvents
    cases hp : r.replayPeekEvent with
    | none =>
      rw [bind_run, peekEvent_none hp]
      dsimp only
      rw [hp]
      rfl
    | some record =>
      rw [bind_run, peekEvent_some hp]
      dsimp only
      rw [hp]
      dsimp only
      split
      · rfl
      · exact ih _ _

theorem nextThread_erases (threads : Slot → ThreadRecord) :
    Erases (nextThread threads) (replayNextThread threads) := by
  intro r as
  have hskip := skipEvents_erases (r.eventCount - r.currentIdx) r as
  unfold nextThread replayNextThread
  dsimp only at hskip ⊢
  rw [← (Prod.mk.inj hskip).2, bind_run]
  show (((skipEvents (r.eventCount - r.currentIdx) >>= _ : CursorM _) (r, as)).1,
    ((skipEvents (r.eventCount - r.currentIdx) >>= _ : CursorM _) (r, as)).2.1) = _
  rw [bind_run]
  obtain ⟨q, bs⟩ := (skipEvents (r.eventCount - r.currentIdx) (r, as)).2
  dsimp only
  cases hp : q.replayPeekEvent with
  | none =>
    rw [bind_run, peekEvent_none hp]
    rfl
  | some record =>
    rw [bind_run, peekEvent_some hp]
    dsimp only
    split
    · rfl
    · cases replayFindThread threads (recordData record % 2 ^ 32) <;> rfl

theorem validateEvent_erases (expectedType : Nat) (tid : Tid) :
    Erases (validateEvent expectedType tid) fun r => r.replayValidateEvent expectedType tid := by
  intro r as
  unfold validateEvent ReplayState.replayValidateEvent
  cases hp : r.replayPeekEvent with
  | none =>
    rw [bind_run, peekEvent_none hp]
    dsimp only
    rw [hp]
    rfl
  | some record =>
    rw [bind_run, peekEvent_some hp]
    dsimp only
    rw [hp]
    dsimp only
    split <;> rfl

/-! ## Safety -/

/-- The code logs what it reads, and the cursor moves as the log says. -/
def Safe (m : CursorM α) : Prop :=
  ∀ r as, ∃ bs, (m (r, as)).2.2 = as ++ bs ∧ Moves r (m (r, as)).2.1 bs

theorem Safe.pure (a : α) : Safe (pure a) :=
  fun r as => ⟨[], (List.append_nil as).symm, .still r⟩

theorem Safe.get : Safe get := fun r as => ⟨[], (List.append_nil as).symm, .still r⟩

theorem Safe.bind {m : CursorM α} {k : α → CursorM β} (hm : Safe m) (hk : ∀ a, Safe (k a)) :
    Safe (m >>= k) := by
  intro r as
  obtain ⟨bs, hlog, hmoves⟩ := hm r as
  obtain ⟨cs, hlog', hmoves'⟩ := hk (m (r, as)).1 (m (r, as)).2.1 (m (r, as)).2.2
  refine ⟨bs ++ cs, ?_, hmoves.trans hmoves'⟩
  rw [← List.append_assoc, ← hlog]
  exact hlog'

theorem markDiverged_safe : Safe markDiverged :=
  fun r as => ⟨[], (List.append_nil as).symm, .markDiverged r⟩

theorem peekEvent_safe : Safe peekEvent := by
  intro r as
  by_cases hend : r.eventCount ≤ r.currentIdx
  · rw [peekEvent_none (ReplayState.peek_eq_none hend)]
    exact ⟨[], (List.append_nil as).symm, .still r⟩
  · have hlt := Nat.lt_of_not_le hend
    rw [peekEvent_some (ReplayState.peek_eq_some hlt)]
    exact ⟨_, rfl, .look hlt⟩

theorem nextEvent_safe : Safe nextEvent := by
  intro r as
  by_cases hend : r.eventCount ≤ r.currentIdx
  · have hnext : r.replayNextEvent = (none, r) := by
      rw [ReplayState.replayNextEvent, ReplayState.peek_eq_none hend]
    refine ⟨[], ?_, ?_⟩
    · simp [nextEvent, logged, hnext]
    · show Moves r r.replayNextEvent.2 []
      rw [hnext]
      exact .still r
  · have hlt := Nat.lt_of_not_le hend
    have hnext : r.replayNextEvent.1 = some (recordAt r.events r.currentIdx) := by
      rw [ReplayState.replayNextEvent, ReplayState.peek_eq_some hlt]
    refine ⟨[⟨r.currentIdx, recordAt r.events r.currentIdx, true⟩], ?_, .take hlt⟩
    simp [nextEvent, logged, hnext]

theorem skipEvents_safe (fuel : Nat) : Safe (skipEvents fuel) := by
  induction fuel with
  | zero => exact .pure ()
  | succ fuel ih =>
    unfold skipEvents
    refine peekEvent_safe.bind fun record => ?_
    cases record with
    | none => exact .pure ()
    | some record =>
      dsimp only
      split
      · exact .pure ()
      · exact nextEvent_safe.bind fun _ => ih

theorem nextThread_safe (threads : Slot → ThreadRecord) : Safe (nextThread threads) := by
  unfold nextThread
  refine Safe.get.bind fun x => (skipEvents_safe _).bind fun _ => peekEvent_safe.bind fun record => ?_
  cases record with
  | none => exact .pure none
  | some record =>
    dsimp only
    split
    · exact .pure none
    · cases replayFindThread threads (recordData record % 2 ^ 32) with
      | none => exact markDiverged_safe.bind fun _ => .pure none
      | some i => exact nextEvent_safe.bind fun _ => .pure (some i)

theorem validateEvent_safe (expectedType : Nat) (tid : Tid) :
    Safe (validateEvent expectedType tid) := by
  unfold validateEvent
  refine peekEvent_safe.bind fun record => ?_
  cases record with
  | none => exact markDiverged_safe.bind fun _ => .pure false
  | some record =>
    dsimp only
    split
    · exact markDiverged_safe.bind fun _ => .pure false
    · exact nextEvent_safe.bind fun _ => .pure true

end CursorM

/-- The calls that use a loaded trace. -/
inductive CursorOp where
  | nextThread (threads : Slot → ThreadRecord)
  | nextEvent
  | validateEvent (expectedType : Nat) (tid : Tid)

namespace CursorOp

/-- What a call leaves. -/
def run (r : ReplayState) : CursorOp → ReplayState
  | .nextThread threads => (replayNextThread threads r).2
  | .nextEvent => r.replayNextEvent.2
  | .validateEvent expectedType tid => (r.replayValidateEvent expectedType tid).2

/-- The records a call reads, in order: the log of its code. -/
def accesses (r : ReplayState) : CursorOp → List Access
  | .nextThread threads => (CursorM.nextThread threads (r, [])).2.2
  | .nextEvent => (CursorM.nextEvent (r, [])).2.2
  | .validateEvent expectedType tid => (CursorM.validateEvent expectedType tid (r, [])).2.2

/-- A sequence of calls: what it leaves and what it reads. -/
def runAll (r : ReplayState) : List CursorOp → ReplayState × List Access
  | [] => (r, [])
  | op :: ops => ((runAll (op.run r) ops).1, op.accesses r ++ (runAll (op.run r) ops).2)

/-- What code logs that starts with an empty log, and what it leaves. -/
theorem moves_of_code {α : Type} {m : CursorM α} {f : ReplayState → α × ReplayState}
    (herase : m.Erases f) (hsafe : m.Safe) (r : ReplayState) :
    Moves r (f r).2 (m (r, [])).2.2 := by
  obtain ⟨bs, hlog, hmoves⟩ := hsafe r []
  rw [← herase r [], hlog, List.nil_append]
  exact hmoves

/-- **One call.** -/
theorem moves (r : ReplayState) (op : CursorOp) : Moves r (op.run r) (op.accesses r) := by
  cases op with
  | nextThread threads =>
    exact moves_of_code (CursorM.nextThread_erases threads) (CursorM.nextThread_safe threads) r
  | nextEvent => exact moves_of_code CursorM.nextEvent_erases CursorM.nextEvent_safe r
  | validateEvent expectedType tid =>
    exact moves_of_code (CursorM.validateEvent_erases expectedType tid)
      (CursorM.validateEvent_safe expectedType tid) r

/-- **Any sequence of calls.** -/
theorem moves_runAll (ops : List CursorOp) : ∀ r : ReplayState,
    Moves r (runAll r ops).1 (runAll r ops).2 := by
  induction ops with
  | nil => exact fun r => Moves.still r
  | cons op ops ih => exact fun r => (moves r op).trans (ih (op.run r))

end CursorOp

/-! ## The loop of `gth_replay_next_thread` -/

namespace ReplayState
variable {r : ReplayState}

/-- The loop of `gth_replay_next_thread` goes on. -/
def Skips (r : ReplayState) : Prop :=
  ∃ record, r.replayPeekEvent = some record ∧ isSwitchRecord record = false

/-- **The loop ends**: after at most as many iterations as there are records left, its condition
    fails.  What `skipEvents` computes with that much fuel is where it ends. -/
theorem skipEvents_loop : ∀ (fuel : Nat) (r : ReplayState), r.eventCount - r.currentIdx ≤ fuel →
    ∃ n ≤ r.eventCount - r.currentIdx,
      r.skipEvents fuel = (fun q : ReplayState => q.replayNextEvent.2)^[n] r ∧
      (∀ m < n, Skips ((fun q : ReplayState => q.replayNextEvent.2)^[m] r)) ∧
      ¬ Skips ((fun q : ReplayState => q.replayNextEvent.2)^[n] r) := by
  intro fuel
  induction fuel with
  | zero =>
    intro r hr
    refine ⟨0, Nat.zero_le _, rfl, nofun, ?_⟩
    rintro ⟨record, hp, -⟩
    rw [Function.iterate_zero, id, peek_eq_none (by omega)] at hp
    cases hp
  | succ fuel ih =>
    intro r hr
    by_cases hend : r.eventCount ≤ r.currentIdx
    · have hp := peek_eq_none hend
      refine ⟨0, Nat.zero_le _, ?_, nofun, ?_⟩
      · unfold skipEvents
        rw [hp]
        rfl
      · rintro ⟨record, hp', -⟩
        cases hp.symm.trans hp'
    · have hp := peek_eq_some (Nat.lt_of_not_le hend)
      by_cases hs : recordType (recordAt r.events r.currentIdx) = EventType.contextSwitch.code
      · refine ⟨0, Nat.zero_le _, ?_, nofun, ?_⟩
        · unfold skipEvents
          rw [hp]
          exact if_pos hs
        · rintro ⟨record, hp', hno⟩
          obtain rfl := Option.some.inj (hp.symm.trans hp')
          rw [isSwitchRecord, hs] at hno
          exact absurd hno (by decide)
      · have hskips : Skips r := ⟨_, hp, beq_eq_false_iff_ne.mpr hs⟩
        have hnext : r.replayNextEvent.2.eventCount - r.replayNextEvent.2.currentIdx
            = r.eventCount - r.currentIdx - 1 := by
          rw [replayNextEvent, hp]
          show r.eventCount - (r.currentIdx + 1) = _
          omega
        obtain ⟨n, hn, heq, hall, hstop⟩ := ih r.replayNextEvent.2 (by omega)
        refine ⟨n + 1, by omega, ?_, fun m hm => ?_, hstop⟩
        · unfold skipEvents
          rw [hp]
          exact (if_neg hs).trans heq
        · cases m with
          | zero => exact hskips
          | succ m => exact hall m (by omega)

/-- **The loop ends on the first context-switch record** from the cursor on, or at the end. -/
theorem skipEvents_first : ∀ (fuel : Nat) (r : ReplayState), r.eventCount - r.currentIdx ≤ fuel →
    (∀ i, r.currentIdx ≤ i → i < (r.skipEvents fuel).currentIdx →
      isSwitchRecord (recordAt r.events i) = false) ∧
    ((r.skipEvents fuel).currentIdx < r.eventCount →
      isSwitchRecord (recordAt r.events (r.skipEvents fuel).currentIdx) = true) := by
  intro fuel
  induction fuel with
  | zero =>
    intro r hr
    exact ⟨fun i hi hlt => absurd hlt (Nat.not_lt_of_le hi), fun hlt => absurd hlt (by
      show ¬ r.currentIdx < r.eventCount
      omega)⟩
  | succ fuel ih =>
    intro r hr
    unfold skipEvents
    by_cases hend : r.eventCount ≤ r.currentIdx
    · rw [peek_eq_none hend]
      exact ⟨fun i hi hlt => absurd hlt (Nat.not_lt_of_le hi),
        fun hlt => absurd hlt (Nat.not_lt_of_le hend)⟩
    · have hp := peek_eq_some (Nat.lt_of_not_le hend)
      rw [hp]
      dsimp only
      by_cases hs : recordType (recordAt r.events r.currentIdx) = EventType.contextSwitch.code
      · rw [if_pos hs]
        exact ⟨fun i hi hlt => absurd hlt (Nat.not_lt_of_le hi), fun _ => beq_iff_eq.mpr hs⟩
      · rw [if_neg hs]
        obtain ⟨hbefore, hat⟩ := ih r.replayNextEvent.2 (by
          rw [replayNextEvent, hp]
          show r.eventCount - (r.currentIdx + 1) ≤ fuel
          omega)
        have hmoves := Moves.take (Nat.lt_of_not_le hend)
        have hcur : r.replayNextEvent.2.currentIdx = r.currentIdx + 1 := by
          rw [replayNextEvent, hp]
        rw [hmoves.events, hcur] at hbefore
        rw [hmoves.events, hmoves.eventCount] at hat
        refine ⟨fun i hi hlt => ?_, hat⟩
        rcases Nat.eq_or_lt_of_le hi with rfl | hgt
        · exact beq_eq_false_iff_ne.mpr hs
        · exact hbefore i hgt hlt

/-- Record `i` is the first context-switch record from the cursor on. -/
def FirstSwitch (r : ReplayState) (i : Nat) : Prop :=
  r.currentIdx ≤ i ∧ i < r.eventCount ∧ isSwitchRecord (recordAt r.events i) = true ∧
    ∀ j, r.currentIdx ≤ j → j < i → isSwitchRecord (recordAt r.events j) = false

theorem FirstSwitch.unique {i j : Nat} (hi : r.FirstSwitch i) (hj : r.FirstSwitch j) : i = j := by
  obtain ⟨hle, -, hs, hbefore⟩ := hi
  obtain ⟨hle', -, hs', hbefore'⟩ := hj
  rcases Nat.lt_trichotomy i j with hlt | heq | hlt
  · rw [hbefore' i hle hlt] at hs
    cases hs
  · exact heq
  · rw [hbefore j hle' hlt] at hs'
    cases hs'

end ReplayState

/-- The thread that a tid of the trace stands for: the one `gth_runtime_find_thread` finds, if it is
    `READY` or `RUNNING`. -/
def Names (threads : Slot → ThreadRecord) (tid : Tid) (i : Slot) : Prop :=
  tid ≠ 0 ∧ findThread threads tid = some i ∧
    ((threads i).state = .ready ∨ (threads i).state = .running)

theorem replayFindThread_iff {threads : Slot → ThreadRecord} {tid : Tid} {i : Slot} :
    replayFindThread threads tid = some i ↔ Names threads tid i := by
  unfold replayFindThread Names
  by_cases htid : tid = 0
  · rw [if_pos htid]
    exact ⟨nofun, fun h => absurd htid h.1⟩
  rw [if_neg htid]
  cases hf : findThread threads tid with
  | none => exact ⟨nofun, fun h => nomatch h.2.1⟩
  | some j =>
    dsimp only
    by_cases hstate : (threads j).state ≠ .ready ∧ (threads j).state ≠ .running
    · rw [if_pos hstate]
      refine ⟨nofun, ?_⟩
      rintro ⟨-, hj, hready⟩
      obtain rfl := Option.some.inj hj
      rcases hready with h | h
      · exact absurd h hstate.1
      · exact absurd h hstate.2
    · rw [if_neg hstate]
      rw [not_and_or, not_not, not_not] at hstate
      constructor
      · intro hj
        obtain rfl := Option.some.inj hj
        exact ⟨htid, rfl, hstate⟩
      · rintro ⟨-, hj, -⟩
        exact hj

/-- With distinct tids, none of them 0, a tid stands for its thread, if that is `READY` or
    `RUNNING`. -/
theorem names_iff {threads : Slot → ThreadRecord} (hdistinct : DistinctTids threads)
    (hpos : ∀ i, (threads i).state ≠ .empty → (threads i).tid ≠ 0) {tid : Tid} {i : Slot} :
    Names threads tid i ↔ (threads i).tid = tid ∧
      ((threads i).state = .ready ∨ (threads i).state = .running) := by
  constructor
  · rintro ⟨-, hf, hstate⟩
    exact ⟨(findThread_some hf).2, hstate⟩
  · rintro ⟨rfl, hstate⟩
    have hne : (threads i).state ≠ .empty := by
      rcases hstate with h | h <;> rw [h] <;> decide
    exact ⟨hpos i hne, hdistinct.find hne, hstate⟩

/-- **`gth_replay_next_thread`**, case by case. -/
theorem replayNextThread_cases (threads : Slot → ThreadRecord) {r : ReplayState}
    (hr : r.currentIdx ≤ r.eventCount) :
    (∃ i j, r.FirstSwitch i ∧ Names threads (recordToTid (recordAt r.events i)) j ∧
      replayNextThread threads r
        = (some j, (r.skipEvents (r.eventCount - r.currentIdx)).replayNextEvent.2) ∧
      (replayNextThread threads r).2.currentIdx = i + 1) ∨
    (∃ i, r.FirstSwitch i ∧ (∀ j, ¬ Names threads (recordToTid (recordAt r.events i)) j) ∧
      replayNextThread threads r
        = (none, (r.skipEvents (r.eventCount - r.currentIdx)).replayMarkDiverged) ∧
      (replayNextThread threads r).2.currentIdx = i) ∨
    ((∀ i, ¬ r.FirstSwitch i) ∧
      replayNextThread threads r = (none, r.skipEvents (r.eventCount - r.currentIdx)) ∧
      (replayNextThread threads r).2.currentIdx = r.eventCount) := by
  have hmoves : Moves r (r.skipEvents (r.eventCount - r.currentIdx)) _ :=
    CursorOp.moves_of_code (CursorM.skipEvents_erases _) (CursorM.skipEvents_safe _) r
  obtain ⟨hbefore, hat⟩ := ReplayState.skipEvents_first _ r (Nat.le_refl _)
  have hbound := hmoves.bounded hr
  generalize hq : r.skipEvents (r.eventCount - r.currentIdx) = q at hmoves hbefore hat hbound ⊢
  by_cases hend : q.currentIdx < r.eventCount
  · have hs := hat hend
    have hfirst : r.FirstSwitch q.currentIdx := ⟨hmoves.forward, hend, hs, hbefore⟩
    have hp := ReplayState.peek_eq_some (r := q) (by rw [hmoves.eventCount]; exact hend)
    rw [hmoves.events] at hp
    have hcode : recordType (recordAt r.events q.currentIdx) = EventType.contextSwitch.code :=
      beq_iff_eq.mp hs
    have hres : replayNextThread threads r
        = match replayFindThread threads (recordToTid (recordAt r.events q.currentIdx)) with
          | none => (none, q.replayMarkDiverged)
          | some j => (some j, q.replayNextEvent.2) := by
      unfold replayNextThread
      dsimp only
      rw [hq, hp]
      exact if_neg (not_not_intro hcode)
    cases hf : replayFindThread threads (recordToTid (recordAt r.events q.currentIdx)) with
    | none =>
      rw [hf] at hres
      refine Or.inr (Or.inl ⟨q.currentIdx, hfirst, fun j hj => ?_, hres, ?_⟩)
      · cases hf.symm.trans (replayFindThread_iff.mpr hj)
      · rw [hres]
        rfl
    | some j =>
      rw [hf] at hres
      refine Or.inl ⟨q.currentIdx, j, hfirst, replayFindThread_iff.mp hf, hres, ?_⟩
      rw [hres]
      show q.replayNextEvent.2.currentIdx = _
      rw [ReplayState.replayNextEvent, hp]
  · have hp := ReplayState.peek_eq_none (r := q) (by rw [hmoves.eventCount]; omega)
    have hres : replayNextThread threads r = (none, q) := by
      unfold replayNextThread
      dsimp only
      rw [hq, hp]
    refine Or.inr (Or.inr ⟨fun i hi => ?_, hres, ?_⟩)
    · have hno := hbefore i hi.1 (by have := hi.2.1; omega)
      rw [hi.2.2.1] at hno
      cases hno
    · rw [hres]
      show q.currentIdx = r.eventCount
      omega

/-- The pick and the cursor after it. -/
theorem replayNextThread_spec (threads : Slot → ThreadRecord) {r : ReplayState}
    (hr : r.currentIdx ≤ r.eventCount) :
    (∀ j, (replayNextThread threads r).1 = some j ↔
      ∃ i, r.FirstSwitch i ∧ Names threads (recordToTid (recordAt r.events i)) j) ∧
    (∀ i, r.FirstSwitch i → (replayNextThread threads r).2.currentIdx
      = if (replayNextThread threads r).1 = none then i else i + 1) ∧
    ((∀ i, ¬ r.FirstSwitch i) →
      (replayNextThread threads r).2.currentIdx = r.eventCount) := by
  rcases replayNextThread_cases threads hr with ⟨i, j, hfirst, hnames, heq, hcur⟩ |
      ⟨i, hfirst, hnames, heq, hcur⟩ | ⟨hnone, heq, hcur⟩
  · have hpick : (replayNextThread threads r).1 = some j := by rw [heq]
    refine ⟨fun k => ⟨fun hk => ?_, ?_⟩, fun i' hi' => ?_, fun hno => absurd hfirst (hno i)⟩
    · obtain rfl := Option.some.inj (hpick.symm.trans hk)
      exact ⟨i, hfirst, hnames⟩
    · rintro ⟨i', hi', hk⟩
      obtain rfl := hfirst.unique hi'
      rw [hpick, ← replayFindThread_iff.mpr hnames]
      exact replayFindThread_iff.mpr hk
    · obtain rfl := hfirst.unique hi'
      rw [hcur, hpick, if_neg (Option.some_ne_none j)]
  · have hpick : (replayNextThread threads r).1 = none := by rw [heq]
    refine ⟨fun k => ⟨fun hk => ?_, ?_⟩, fun i' hi' => ?_, fun hno => absurd hfirst (hno i)⟩
    · cases hpick.symm.trans hk
    · rintro ⟨i', hi', hk⟩
      obtain rfl := hfirst.unique hi'
      exact absurd hk (hnames k)
    · obtain rfl := hfirst.unique hi'
      rw [hcur, hpick, if_pos rfl]
  · have hpick : (replayNextThread threads r).1 = none := by rw [heq]
    refine ⟨fun k => ⟨fun hk => ?_, ?_⟩, fun i hi => absurd hi (hnone i), fun _ => hcur⟩
    · cases hpick.symm.trans hk
    · rintro ⟨i, hi, -⟩
      exact absurd hi (hnone i)

/-! ## The whole cursor -/

/-- The records that were counted lie in the file. -/
theorem replayCountRecords_inside {data : List UInt8} {i : Nat} (hi : i < replayCountRecords data) :
    traceHeaderSize + traceRecordSize * (i + 1) ≤ data.length := by
  unfold replayCountRecords at hi
  split at hi
  · exact absurd hi (Nat.not_lt_zero i)
  · next hlen =>
    split at hi
    · exact absurd hi (Nat.not_lt_zero i)
    · dsimp only at hi
      split at hi
      · simp only [traceHeaderSize, traceRecordSize] at hi hlen ⊢
        omega
      · exact absurd hi (Nat.not_lt_zero i)

/-- **The replay cursor is safe and ends.**  After any calls on a trace that `gth_replay_init`
    accepts: what was read are records of the file; those that were taken are the ones in front of
    the cursor, each once and in order; the cursor is not behind the end, and no call moves
    it back.  The loop of `gth_replay_next_thread` ends, and the call returns a thread iff the first
    context-switch record from the cursor on names one that is `READY` or `RUNNING`; the cursor is
    then just past that record, and otherwise on it, or at the end if there is none.  In a table with
    distinct tids, a record names the thread with its tid. -/
theorem replay_cursor_safe (W : World) (u : Sub) (initialized : Bool) (path : Path)
    (data : List UInt8) (hread : (u.replayReadFile W path).1 = some data)
    (haccept : (u.replayInit W initialized (some path)).1 = .ok) (r₀ : ReplayState)
    (hload : (u.replayInit W initialized (some path)).2.replay = some r₀) (ops : List CursorOp)
    (r : ReplayState) (as : List Access) (hrun : CursorOp.runAll r₀ ops = (r, as)) :
    r.events = data ∧ r.eventCount = replayCountRecords data ∧
    (∀ a ∈ as, a.index < r.eventCount ∧ a.record = recordAt data a.index ∧
      traceHeaderSize + traceRecordSize * (a.index + 1) ≤ data.length) ∧
    (as.filter Access.taken).map Access.index = List.range r.currentIdx ∧
    r.currentIdx ≤ r.eventCount ∧
    (∀ op : CursorOp, r.currentIdx ≤ (op.run r).currentIdx ∧
      (op.run r).currentIdx ≤ r.eventCount) ∧
    (∃ n ≤ r.eventCount - r.currentIdx,
      r.skipEvents (r.eventCount - r.currentIdx)
        = (fun q : ReplayState => q.replayNextEvent.2)^[n] r ∧
      (∀ m < n, ReplayState.Skips ((fun q : ReplayState => q.replayNextEvent.2)^[m] r)) ∧
      ¬ ReplayState.Skips ((fun q : ReplayState => q.replayNextEvent.2)^[n] r)) ∧
    ∀ threads : Slot → ThreadRecord,
      (∀ j, (replayNextThread threads r).1 = some j ↔
        ∃ i, r.FirstSwitch i ∧ Names threads (recordToTid (recordAt data i)) j) ∧
      (∀ i, r.FirstSwitch i → (replayNextThread threads r).2.currentIdx
        = if (replayNextThread threads r).1 = none then i else i + 1) ∧
      ((∀ i, ¬ r.FirstSwitch i) → (replayNextThread threads r).2.currentIdx = r.eventCount) ∧
      (DistinctTids threads → (∀ j, (threads j).state ≠ .empty → (threads j).tid ≠ 0) →
        ∀ tid j, Names threads tid j ↔ (threads j).tid = tid ∧
          ((threads j).state = .ready ∨ (threads j).state = .running)) := by
  obtain ⟨data', hread', -, hloaded⟩ := Sub.replayInit_accepted haccept
  obtain rfl : data' = data := Option.some.inj (hread'.symm.trans hread)
  obtain rfl : r₀ = .loaded data' := Option.some.inj (hload.symm.trans hloaded)
  have hmoves := CursorOp.moves_runAll ops (.loaded data')
  rw [hrun] at hmoves
  have hevents : r.events = data' := hmoves.events
  have hcount : r.eventCount = replayCountRecords data' := hmoves.eventCount
  have hbound : r.currentIdx ≤ r.eventCount := by
    rw [hcount]
    exact hmoves.bounded (Nat.zero_le _)
  refine ⟨hevents, hcount, fun a ha => ?_, ?_, hbound, fun op => ?_,
    ReplayState.skipEvents_loop _ r (Nat.le_refl _), fun threads => ?_⟩
  · obtain ⟨hin, hrecord⟩ := hmoves.records a ha
    have hin : a.index < replayCountRecords data' := hin
    exact ⟨hcount ▸ hin, hrecord, replayCountRecords_inside hin⟩
  · rw [hmoves.taken, List.range_eq_range']
    rfl
  · have hop := CursorOp.moves r op
    exact ⟨hop.forward, hop.bounded hbound⟩
  · obtain ⟨hpick, hat, hend⟩ := replayNextThread_spec threads hbound
    rw [hevents] at hpick
    exact ⟨hpick, hat, hend, fun hdistinct hpos _ _ => names_iff hdistinct hpos⟩

namespace Sample

/-- A trace file with a record of thread 1 and two switches, to thread 1 and to thread 2. -/
def pickTrace : List UInt8 :=
  headerBytes 0 ++ recordBytes 0 EventType.threadCreate.code 1 0 ++
    recordBytes 0 EventType.contextSwitch.code 0 1 ++ recordBytes 0 EventType.contextSwitch.code 1 2

/-- Thread 1 is at slot 0, in this state. -/
def oneThread (state : ThreadState) : Slot → ThreadRecord :=
  Function.update (fun _ => {}) 0 { tid := 1, state := state }

/-- A file with that trace. -/
def pickFile : Sub := { files := fun _ => some pickTrace }

/-- A pick that fails, since thread 1 is `BLOCKED`, and one when it is `READY`. -/
def picks : List CursorOp := [.nextThread (oneThread .blocked), .nextThread (oneThread .ready)]

end Sample

/-- The failed pick skips the first record and stays on the switch to thread 1, at which it has
    looked twice; the next pick finds the thread there and takes the record. -/
theorem replay_cursor_safe_picks : ∃ r as r' as',
    CursorOp.runAll (.loaded Sample.pickTrace) (Sample.picks.take 1) = (r, as) ∧
      (replayNextThread (Sample.oneThread .blocked) (.loaded Sample.pickTrace)).1 = none ∧
      (as.filter Access.taken).map Access.index = List.range r.currentIdx ∧ r.currentIdx = 1 ∧
      (∃ i, r.FirstSwitch i ∧
        Names (Sample.oneThread .ready) (recordToTid (recordAt Sample.pickTrace i)) 0 ∧
        (replayNextThread (Sample.oneThread .ready) r).2.currentIdx = i + 1) ∧
    CursorOp.runAll (.loaded Sample.pickTrace) Sample.picks = (r', as') ∧
      as'.map (fun a => (a.index, a.taken)) = [(0, false), (0, true), (1, false), (1, false),
        (1, false), (1, false), (1, true)] ∧
      (∀ a ∈ as', a.index < r'.eventCount ∧ a.record = recordAt Sample.pickTrace a.index) ∧
      (as'.filter Access.taken).map Access.index = List.range r'.currentIdx ∧
      r'.currentIdx = 2 ∧ r'.eventCount = 3 := by
  have hread : (Sample.pickFile.replayReadFile Sample.world [1]).1 = some Sample.pickTrace := by
    decide +kernel
  have haccept : (Sample.pickFile.replayInit Sample.world true (some [1])).1 = .ok := by
    decide +kernel
  have hload : (Sample.pickFile.replayInit Sample.world true (some [1])).2.replay
      = some (.loaded Sample.pickTrace) := by decide +kernel
  obtain ⟨-, -, -, htaken, -, -, -, hpick⟩ := replay_cursor_safe Sample.world Sample.pickFile true
    [1] Sample.pickTrace hread haccept _ hload (Sample.picks.take 1) _ _ rfl
  obtain ⟨-, -, hrecords, htaken', -⟩ := replay_cursor_safe Sample.world Sample.pickFile true [1]
    Sample.pickTrace hread haccept _ hload Sample.picks _ _ rfl
  obtain ⟨hthread, hcursor, -⟩ := hpick (Sample.oneThread .ready)
  obtain ⟨i, hfirst, hnames⟩ := (hthread 0).mp (by decide +kernel)
  refine ⟨_, _, _, _, rfl, by decide +kernel, htaken, by decide +kernel, ⟨i, hfirst, hnames, ?_⟩,
    rfl, by decide +kernel, fun a ha => ?_, htaken', by decide +kernel, by decide +kernel⟩
  · rw [hcursor i hfirst, if_neg (by decide +kernel)]
  · exact ⟨(hrecords a ha).1, (hrecords a ha).2.1⟩

end Gth

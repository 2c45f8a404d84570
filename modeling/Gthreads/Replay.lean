/-
  Replay (`src/trace/replay.c`).

  The whole file is kept as bytes; the records are read out of it in place, at a cursor.
-/
import Gthreads.Trace

namespace Gth

/-- `GTH_REPLAY_MAX_FILE_SIZE`. -/
def replayMaxFileSize : Nat := 256 * 1024 * 1024

/-- `gth_replay_validate_header`. -/
def replayValidateHeader (data : List UInt8) : Bool :=
  Bytes.ofLe (Bytes.slice 0 4 data) == traceMagic
    && Bytes.ofLe (Bytes.slice 4 4 data) == traceVersion

/-- Record number `i` of the file contents `data`. -/
def recordAt (data : List UInt8) (i : Nat) : List UInt8 :=
  Bytes.block traceRecordSize i (data.drop traceHeaderSize)

/-- `gth_replay_count_records`; 0 on error. -/
def replayCountRecords (data : List UInt8) : Nat :=
  if data.length < traceHeaderSize then 0
  else if replayValidateHeader data = false then 0
  else
    let recordCount := (data.length - traceHeaderSize) / traceRecordSize
    if (List.range recordCount).all fun i => traceValidateRecord (recordAt data i) then recordCount
    else 0

namespace Sub
variable (W : World)

/-- `gth_replay_read_file`. -/
def replayReadFile (u : Sub) (path : Path) : Option (List UInt8) × Sub :=
  let (opened, u) := u.ask W
  match u.files path with
  | none => (none, u)
  | some contents =>
    if opened.ok = false then (none, u)
    else
      let (sought, u) := u.ask W
      if sought.ok = false then (none, u)
      else if contents.length < traceHeaderSize then (none, u)
      else if replayMaxFileSize < contents.length then (none, u)
      else
        let (allocated, u) := u.ask W
        if allocated.ok = false then (none, u)
        else
          let (read, u) := u.ask W
          if read.transferred contents.length ≠ contents.length then (none, u)
          else (some contents, u)

/-- `gth_replay_init`. -/
def replayInit (u : Sub) (initialized : Bool) (tracePath : Option Path) : Status × Sub :=
  if initialized = false then (.estate, u)
  else match tracePath with
    | none => (.einval, u)
    | some [] => (.einval, u)
    | some path =>
      if u.replay ≠ none then (.estate, u)
      else match u.replayReadFile W path with
        | (none, u) => (.enotfound, u)
        | (some data, u) =>
          let recordCount := replayCountRecords data
          if recordCount = 0 then (.estate, u)
          else
            let (allocated, u) := u.ask W
            if allocated.ok = false then (.enomem, u)
            else (.ok, { u with replay := some ⟨data, recordCount, 0, false, 0⟩ })

/-- `gth_replay_cleanup`. -/
def replayCleanup (u : Sub) : Sub := { u with replay := none }

/-- `gth_replay_from` (in `trace.c`). -/
def replayFrom (u : Sub) (initialized : Bool) (tracePath : Option Path) : Status × Sub :=
  match u.replayInit W initialized tracePath with
  | (.ok, u) => (.ok, { u with mode := .replay, traceEnabled := false })
  | (status, u) => (status, u)

end Sub

namespace ReplayState

/-- `gth_replay_peek_event`: the record at the cursor. -/
def replayPeekEvent (r : ReplayState) : Option (List UInt8) :=
  if r.eventCount ≤ r.currentIdx then none else some (recordAt r.events r.currentIdx)

/-- `gth_replay_next_event`: the record at the cursor, which moves on. -/
def replayNextEvent (r : ReplayState) : Option (List UInt8) × ReplayState :=
  match r.replayPeekEvent with
  | none => (none, r)
  | some record =>
    (some record,
      { r with lastTimestamp := recordTimestamp record, currentIdx := r.currentIdx + 1 })

/-- `gth_replay_mark_diverged`. -/
def replayMarkDiverged (r : ReplayState) : ReplayState := { r with diverged := true }

/-- The loop of `gth_replay_next_thread` that consumes records up to the next context switch.
    It ends at the last record at the latest, so the records left are enough `fuel`. -/
def skipEvents (r : ReplayState) : Nat → ReplayState
  | 0 => r
  | fuel + 1 => match r.replayPeekEvent with
    | none => r
    | some record =>
      if recordType record = EventType.contextSwitch.code then r
      else skipEvents r.replayNextEvent.2 fuel

/-- `gth_replay_validate_event`.  Nothing in the program calls it. -/
def replayValidateEvent (r : ReplayState) (expectedType : Nat) (tid : Tid) : Bool × ReplayState :=
  match r.replayPeekEvent with
  | none => (false, r.replayMarkDiverged)
  | some record =>
    if recordType record ≠ expectedType ∨ recordTid record ≠ tid then (false, r.replayMarkDiverged)
    else (true, r.replayNextEvent.2)

end ReplayState

/-- `gth_replay_find_thread`: `READY` or `RUNNING`. -/
def replayFindThread (threads : Slot → ThreadRecord) (tid : Tid) : Option Slot :=
  if tid = 0 then none
  else match findThread threads tid with
    | none => none
    | some i =>
      if (threads i).state ≠ .ready ∧ (threads i).state ≠ .running then none else some i

/-- `gth_replay_next_thread`. -/
def replayNextThread (threads : Slot → ThreadRecord) (r : ReplayState) :
    Option Slot × ReplayState :=
  let r := r.skipEvents (r.eventCount - r.currentIdx)
  match r.replayPeekEvent with
  | none => (none, r)
  | some record =>
    if recordType record ≠ EventType.contextSwitch.code then (none, r)
    else
      let toTid := recordData record % 2 ^ 32
      match replayFindThread threads toTid with
      | none => (none, r.replayMarkDiverged)
      | some i => (some i, r.replayNextEvent.2)

end Gth

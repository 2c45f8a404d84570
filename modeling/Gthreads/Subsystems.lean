/-
  The state of the scheduler modes and of the trace, replay and fuzz subsystems
  (`src/internal/runtime_state.h`), and the on-disk trace format (`src/trace/trace_format.h`).

  What these subsystems ask of the C library — the clock, `malloc`, `fopen`, `fwrite`, `fread` —
  is answered by a `World`: the n-th such call of a run gets the answer `W.answer n`.  Theorems
  quantify over all worlds, so over every failing `malloc`, every short write and every clock.
-/
import Gthreads.Core
import Gthreads.Lib.Bytes

namespace Gth

/-- `gth_scheduler_mode_t`. -/
inductive Mode where
  | normal | record | replay | fuzz
  deriving DecidableEq, Repr

/-- A path as a C string, without its terminator. -/
abbrev Path := List UInt8

/-- One answer of the C library: did the call succeed, which time does a clock show, and after how
    many bytes did a transfer stop short (`none`: it was complete). -/
structure Answer where
  ok : Bool
  time : Nat
  short : Option Nat

/-- The number of bytes of a transfer of `n` bytes that were transferred. -/
def Answer.transferred (a : Answer) (n : Nat) : Nat := (a.short.map fun k => min k n).getD n

/-- The outside world of a run.  `fuel` bounds the iterations of the one loop of the program that
    has no bound of its own (`gth_fuzz_random_range`); a run that would exceed it gets stuck. -/
structure World where
  answer : Nat → Answer
  fuel : Nat

/-- `gth_trace_buffer_t`; `buffer` is the used part of the raw memory. -/
structure TraceBuffer where
  buffer : List UInt8
  capacity : Nat
  count : Nat
  recordSize : Nat
  deriving DecidableEq

/-- `gth_trace_state_t`; an open `FILE *` is the path it was opened at. -/
structure TraceState where
  file : Option Path
  buffer : Option TraceBuffer
  eventCount : Nat
  timestampFreq : Nat
  startTime : Nat
  active : Bool
  deriving DecidableEq

/-- `gth_replay_state_t`. -/
structure ReplayState where
  events : List UInt8
  eventCount : Nat
  currentIdx : Nat
  diverged : Bool
  lastTimestamp : Nat
  deriving DecidableEq

/-- `gth_fuzz_state_t`. -/
structure FuzzState where
  state0 : BitVec 64
  state1 : BitVec 64
  seed : BitVec 64
  decisionCount : Nat
  perturbationRate : Nat
  deriving DecidableEq

/-- The fields of `gth_runtime_state_t` that are not in `Core`, and the file system. -/
structure Sub where
  mode : Mode := .normal
  lastRrSlot : Nat := 0
  traceEnabled : Bool := false
  trace : Option TraceState := none
  replay : Option ReplayState := none
  fuzz : Option FuzzState := none
  files : Path → Option (List UInt8) := fun _ => none
  /-- How many calls the world has answered. -/
  calls : Nat := 0

/-- The next answer of the world. -/
def Sub.ask (W : World) (u : Sub) : Answer × Sub :=
  (W.answer u.calls, { u with calls := u.calls + 1 })

/-! ## The trace format -/

/-- `GTH_TRACE_MAGIC`. -/
def traceMagic : Nat := 0x32525447

/-- `GTH_TRACE_VERSION`. -/
def traceVersion : Nat := 2

/-- `GTH_TRACE_RECORD_SIZE`, and `sizeof(gth_trace_header_t)`. -/
abbrev traceRecordSize : Nat := 32
abbrev traceHeaderSize : Nat := 32

/-- `GTH_TRACE_BUFFER_COUNT`. -/
def traceBufferCount : Nat := 256

/-- `gth_trace_timestamp_freq` on x86-64. -/
def traceTimestampFreq : Nat := 2500000000

/-- A `gth_trace_header_t`; its two reserved words are zero. -/
def headerBytes (creationTime : Nat) : List UInt8 :=
  Bytes.leBytes 4 traceMagic ++ Bytes.leBytes 4 traceVersion ++ Bytes.leBytes 8 creationTime
    ++ Bytes.leBytes 8 traceTimestampFreq ++ Bytes.leBytes 4 0 ++ Bytes.leBytes 4 0

/-- The first 28 bytes of a `gth_trace_record_t`; `reserved`, `slot_index` and `pad` stay zero. -/
def recordBody (timestamp type tid data : Nat) : List UInt8 :=
  Bytes.leBytes 8 timestamp ++ (Bytes.leBytes 1 type ++ (Bytes.leBytes 1 0
    ++ (Bytes.leBytes 4 tid ++ (Bytes.leBytes 4 0 ++ (Bytes.leBytes 8 data ++ Bytes.leBytes 2 0)))))

/-- `gth_trace_calc_checksum`: FNV-1a over all bytes but the last four. -/
def traceCalcChecksum (record : List UInt8) : BitVec 32 :=
  (record.take (traceRecordSize - 4)).foldl
    (fun hash b => (hash ^^^ BitVec.ofNat 32 b.toNat) * 16777619#32) 2166136261#32

/-- A whole record with its checksum. -/
def recordBytes (timestamp type tid data : Nat) : List UInt8 :=
  recordBody timestamp type tid data
    ++ Bytes.leBytes 4 (traceCalcChecksum (recordBody timestamp type tid data)).toNat

/-- `gth_trace_validate_record`. -/
def traceValidateRecord (record : List UInt8) : Bool :=
  Bytes.ofLe (Bytes.slice 28 4 record) == (traceCalcChecksum record).toNat

/-! The fields the replay reads. -/

def recordTimestamp (record : List UInt8) : Nat := Bytes.ofLe (Bytes.slice 0 8 record)
def recordType (record : List UInt8) : Nat := Bytes.ofLe (Bytes.slice 8 1 record)
def recordTid (record : List UInt8) : Nat := Bytes.ofLe (Bytes.slice 10 4 record)
def recordData (record : List UInt8) : Nat := Bytes.ofLe (Bytes.slice 18 8 record)

/-- The `switch` of `gth_trace_record` that packs `data1` and `data2` into `data.raw`.  The two
    masked halves do not overlap, so their `|` is a sum. -/
def packData (type : EventType) (data1 data2 : Nat) : Nat :=
  match type with
  | .contextSwitch | .semWait | .semPost | .condBroadcast | .condSignal =>
    data1 % 2 ^ 32 * 2 ^ 32 + data2 % 2 ^ 32
  | _ => data1

end Gth

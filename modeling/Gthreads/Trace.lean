/-
  Recording (`src/trace/trace.c`, `src/trace/trace_buffer.c`).

  Records go to a buffer of 256 records and from there to the file.  A file is the list of bytes
  `fwrite` has accepted since it was opened.
-/
import Gthreads.Subsystems

namespace Gth

/-! ## The buffer -/

namespace TraceBuffer

def traceBufferIsFull (buf : TraceBuffer) : Bool := decide (buf.capacity ≤ buf.count)

/-- `gth_trace_buffer_append`; `none` when the buffer is full. -/
def traceBufferAppend (buf : TraceBuffer) (record : List UInt8) : Option TraceBuffer :=
  if buf.traceBufferIsFull then none
  else some { buf with buffer := buf.buffer ++ record, count := buf.count + 1 }

end TraceBuffer

namespace Sub
variable (W : World)

/-- `gth_trace_timestamp`: a 64-bit counter. -/
def traceTimestamp (u : Sub) : Nat × Sub :=
  let (a, u) := u.ask W
  (a.time % 2 ^ 64, u)

/-- `fwrite(bytes, 1, length, fp)`: a prefix of the bytes reaches the file. -/
def fwrite (u : Sub) (path : Path) (bytes : List UInt8) : Nat × Sub :=
  let (a, u) := u.ask W
  let written := a.transferred bytes.length
  (written, { u with
    files := Function.update u.files path (some ((u.files path).getD [] ++ bytes.take written)) })

/-- `gth_trace_buffer_create(GTH_TRACE_BUFFER_COUNT, GTH_TRACE_RECORD_SIZE)`: two allocations. -/
def traceBufferCreate (u : Sub) : Option TraceBuffer × Sub :=
  let (a, u) := u.ask W
  if a.ok = false then (none, u)
  else
    let (b, u) := u.ask W
    if b.ok = false then (none, u)
    else (some ⟨[], traceBufferCount, 0, traceRecordSize⟩, u)

/-- `gth_trace_buffer_flush`: the buffer is emptied only if every byte was written. -/
def traceBufferFlush (u : Sub) (buf : TraceBuffer) (path : Path) : TraceBuffer × Sub :=
  if buf.count = 0 then (buf, u)
  else
    let writeSize := buf.count * buf.recordSize
    let (written, u) := u.fwrite W path buf.buffer
    if written ≠ writeSize then (buf, u)
    else ({ buf with buffer := [], count := 0 }, u)

/-! ## The trace subsystem -/

/-- `gth_trace_flush`. -/
def traceFlush (u : Sub) : Sub :=
  match u.trace with
  | none => u
  | some t => match t.file, t.buffer with
    | some path, some buf =>
      let (buf, u) := u.traceBufferFlush W buf path
      { u with trace := some { t with buffer := some buf } }
    | _, _ => u

/-- Append `record` to the buffer of the trace state and count it, unless the buffer is full. -/
def traceAppend (u : Sub) (record : List UInt8) : Option Sub :=
  match u.trace with
  | none => none
  | some t => (t.buffer.bind fun buf => buf.traceBufferAppend record).map fun buf =>
      let t := { t with buffer := some buf, eventCount := incr64 t.eventCount }
      { u with trace := some t }

/-- `gth_trace_record`. -/
def traceRecord (u : Sub) (e : Event) : Sub :=
  match u.trace with
  | none => u
  | some t =>
    if t.active = false then u
    else if u.mode = .replay then u
    else if t.buffer = none then u
    else
      let (timestamp, u) := u.traceTimestamp W
      let record := recordBytes timestamp e.type.code e.tid (packData e.type e.data1 e.data2)
      match u.traceAppend record with
      | some u => u
      | none =>
        -- buffer full: flush and retry; a second failure drops the event
        let u := u.traceFlush W
        (u.traceAppend record).getD u

/-- `gth_trace_init`. -/
def traceInit (u : Sub) (initialized : Bool) : Status × Sub :=
  if initialized = false then (.estate, u)
  else if u.trace ≠ none then (.estate, u)
  else
    let (a, u) := u.ask W
    if a.ok = false then (.enomem, u)
    else (.ok, { u with trace := some ⟨none, none, 0, traceTimestampFreq, 0, false⟩ })

/-- `gth_trace_cleanup`. -/
def traceCleanup (u : Sub) : Sub :=
  match u.trace with
  | none => u
  | some t =>
    let u := if t.active then u.traceFlush W else u
    { u with trace := none, traceEnabled := false }

/-- `gth_trace_write_header`. -/
def traceWriteHeader (u : Sub) (path : Path) : Status × Sub :=
  let (a, u) := u.ask W
  let creationTime := if a.ok then a.time % 2 ^ 64 else 0
  let (written, u) := u.fwrite W path (headerBytes creationTime)
  if written ≠ traceHeaderSize then (.einternal, u) else (.ok, u)

/-- The part of `gth_trace_start` after the file has been opened. -/
def traceStartOpened (u : Sub) (t : TraceState) (path : Path) : Status × Sub :=
  let (status, u) := u.traceWriteHeader W path
  if status ≠ .ok then
    (status, { u with trace := some { t with file := none } }.traceCleanup W)
  else
    let (buffer, u) := u.traceBufferCreate W
    match buffer with
    | none => (.enomem, { u with trace := some { t with file := none } }.traceCleanup W)
    | some buf =>
      let (startTime, u) := u.traceTimestamp W
      let t := { t with
        file := some path, buffer := some buf, startTime := startTime, active := true }
      let u := { u with trace := some t, traceEnabled := true }
      (.ok, u.traceRecord W ⟨.runtimeInit, 0, 0, 0⟩)

/-- `gth_trace_start`; `none` is a `NULL` path. -/
def traceStart (u : Sub) (initialized : Bool) (tracePath : Option Path) : Status × Sub :=
  if initialized = false then (.estate, u)
  else match tracePath with
    | none => (.einval, u)
    | some [] => (.einval, u)
    | some path =>
      let (status, u) := u.traceInit W initialized
      if status ≠ .ok ∧ status ≠ .estate then (status, u)
      else match u.trace with
        | none => (status, u)
        | some t =>
          if t.file ≠ none then (.estate, u)
          else
            -- `fopen(path, "wb")` truncates
            let (a, u) := u.ask W
            if a.ok = false then (.einternal, u.traceCleanup W)
            else { u with files := Function.update u.files path (some []) }.traceStartOpened W t path

/-- `gth_trace_stop`. -/
def traceStop (u : Sub) (initialized : Bool) : Status × Sub :=
  if initialized = false then (.estate, u)
  else match u.trace with
    | none => (.estate, u)
    | some t =>
      if t.active = false then (.estate, u)
      else
        let u := u.traceRecord W ⟨.runtimeShutdown, 0, 0, 0⟩
        let u := u.traceFlush W
        let u := { u with
          trace := u.trace.map fun t : TraceState => { t with file := none, active := false }
          traceEnabled := false }
        (.ok, u.traceCleanup W)

end Sub
end Gth

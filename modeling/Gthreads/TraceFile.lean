/-
  What recording writes: the trace file and its records.

  `gth_trace_start` opens the file with a header, `gth_trace_record` appends a record to the
  buffer and writes the buffer out when it is full, `gth_trace_flush` writes it out at once.  The
  part of the trace state that matters is a write-behind log (`Holds`): what is in the file behind
  the header, and the records of 32 bytes that are in the buffer.  `Holds.flush` and `Holds.record`
  say that the functions of `trace.c` are the operations of that log, whatever `fwrite` accepts.

  The other half is the format: the fields and the checksum of a record come back as they were
  written, and a file cut off anywhere still has all the records in front of the cut.
-/
import Gthreads.Modes
import Gthreads.Lib.WriteBehind
import Mathlib

namespace Gth

open WriteBehind (Log)

/-! ## Records -/

section
variable (timestamp type tid data : Nat)

theorem length_recordBody : (recordBody timestamp type tid data).length = 28 := by
  simp [recordBody]

theorem length_recordBytes : (recordBytes timestamp type tid data).length = traceRecordSize := by
  simp [recordBytes, length_recordBody]

/-- The checksum does not cover itself. -/
theorem traceCalcChecksum_recordBytes : traceCalcChecksum (recordBytes timestamp type tid data)
    = traceCalcChecksum (recordBody timestamp type tid data) := by
  have hbody : (recordBody timestamp type tid data).take (traceRecordSize - 4)
      = recordBody timestamp type tid data :=
    List.take_of_length_le (Nat.le_of_eq (length_recordBody timestamp type tid data))
  have hbytes : (recordBytes timestamp type tid data).take (traceRecordSize - 4)
      = recordBody timestamp type tid data :=
    List.take_left' (length_recordBody timestamp type tid data)
  rw [traceCalcChecksum, traceCalcChecksum, hbody, hbytes]

/-- **Every record that is written passes the check of the reader.** -/
theorem traceValidateRecord_recordBytes :
    traceValidateRecord (recordBytes timestamp type tid data) = true := by
  have hsum : Bytes.slice 28 4 (recordBytes timestamp type tid data)
      = Bytes.leBytes 4 (traceCalcChecksum (recordBody timestamp type tid data)).toNat := by
    rw [recordBytes, Bytes.slice_append (length_recordBody timestamp type tid data)]
    exact List.take_of_length_le (Nat.le_of_eq (Bytes.length_leBytes _ _))
  have hlt : (traceCalcChecksum (recordBody timestamp type tid data)).toNat < 256 ^ 4 :=
    (traceCalcChecksum (recordBody timestamp type tid data)).isLt
  rw [traceValidateRecord, hsum, traceCalcChecksum_recordBytes, Bytes.ofLe_leBytes,
    Nat.mod_eq_of_lt hlt]
  exact beq_self_eq_true _

/-- The fields of a record and what is around them. -/
theorem recordBytes_eq : ∃ rest, recordBytes timestamp type tid data
    = Bytes.leBytes 8 timestamp ++ (Bytes.leBytes 1 type ++ (Bytes.leBytes 1 0
      ++ (Bytes.leBytes 4 tid ++ (Bytes.leBytes 4 0 ++ (Bytes.leBytes 8 data ++ rest))))) := by
  refine ⟨Bytes.leBytes 2 0
    ++ Bytes.leBytes 4 (traceCalcChecksum (recordBody timestamp type tid data)).toNat, ?_⟩
  rw [recordBytes]
  generalize Bytes.leBytes 4 (traceCalcChecksum (recordBody timestamp type tid data)).toNat = sum
  simp only [recordBody, List.append_assoc]

theorem recordType_recordBytes : recordType (recordBytes timestamp type tid data) = type % 256 := by
  obtain ⟨rest, h⟩ := recordBytes_eq timestamp type tid data
  rw [recordType, h, Bytes.slice_field (Bytes.length_leBytes _ _) (Bytes.length_leBytes _ _),
    Bytes.ofLe_leBytes, Nat.pow_one]

theorem recordTid_recordBytes : recordTid (recordBytes timestamp type tid data) = tid % 2 ^ 32 := by
  obtain ⟨rest, h⟩ := recordBytes_eq timestamp type tid data
  have hpre : recordBytes timestamp type tid data
      = (Bytes.leBytes 8 timestamp ++ Bytes.leBytes 1 type ++ Bytes.leBytes 1 0)
        ++ (Bytes.leBytes 4 tid ++ (Bytes.leBytes 4 0 ++ (Bytes.leBytes 8 data ++ rest))) := by
    rw [h]
    simp only [List.append_assoc]
  rw [recordTid, hpre, Bytes.slice_field (by simp) (Bytes.length_leBytes _ _), Bytes.ofLe_leBytes]
  rfl

theorem recordData_recordBytes :
    recordData (recordBytes timestamp type tid data) = data % 2 ^ 64 := by
  obtain ⟨rest, h⟩ := recordBytes_eq timestamp type tid data
  have hpre : recordBytes timestamp type tid data
      = (Bytes.leBytes 8 timestamp ++ Bytes.leBytes 1 type ++ Bytes.leBytes 1 0
          ++ Bytes.leBytes 4 tid ++ Bytes.leBytes 4 0) ++ (Bytes.leBytes 8 data ++ rest) := by
    rw [h]
    simp only [List.append_assoc]
  rw [recordData, hpre, Bytes.slice_field (by simp) (Bytes.length_leBytes _ _), Bytes.ofLe_leBytes]
  rfl

end

theorem EventType.code_lt (t : EventType) : t.code < 256 := by
  cases t <;> decide

/-- The record of an event, taken at `timestamp`. -/
def Event.record (e : Event) (timestamp : Nat) : List UInt8 :=
  recordBytes timestamp e.type.code e.tid (packData e.type e.data1 e.data2)

theorem Event.length_record (e : Event) (timestamp : Nat) :
    (e.record timestamp).length = traceRecordSize := length_recordBytes _ _ _ _

/-- The bytes are the record of the event, taken at some time. -/
def Encodes (record : List UInt8) (e : Event) : Prop := ∃ timestamp, record = e.record timestamp

/-- **The fields come back as they were written.** -/
theorem Encodes.fields {record : List UInt8} {e : Event} (h : Encodes record e) :
    record.length = traceRecordSize ∧ traceValidateRecord record = true ∧
      recordType record = e.type.code ∧ recordTid record = e.tid % 2 ^ 32 ∧
      recordData record = packData e.type e.data1 e.data2 % 2 ^ 64 := by
  obtain ⟨timestamp, rfl⟩ := h
  refine ⟨e.length_record timestamp, traceValidateRecord_recordBytes _ _ _ _, ?_,
    recordTid_recordBytes _ _ _ _, recordData_recordBytes _ _ _ _⟩
  rw [Event.record, recordType_recordBytes, Nat.mod_eq_of_lt e.type.code_lt]

section
variable {rs : List (List UInt8)} {es : List Event}

theorem encodes_mem (h : List.Forall₂ Encodes rs es) : ∀ r ∈ rs, ∃ e, Encodes r e := by
  induction h with
  | nil => exact nofun
  | @cons r e rs es he _ ih => exact List.forall_mem_cons.mpr ⟨⟨e, he⟩, ih⟩

theorem encodes_sized (h : List.Forall₂ Encodes rs es) :
    ∀ r ∈ rs, r.length = traceRecordSize := by
  intro r hr
  obtain ⟨e, he⟩ := encodes_mem h r hr
  exact he.fields.1

end

/-! ## The buffer and the file -/

theorem Answer.transferred_le (a : Answer) (n : Nat) : a.transferred n ≤ n := by
  rcases a with ⟨ok, time, _ | k⟩
  · exact Nat.le_refl n
  · exact Nat.min_le_right k n

theorem Answer.transferred_of_complete {a : Answer} (h : a.short = none) (n : Nat) :
    a.transferred n = n := by
  rw [Answer.transferred, h]
  rfl

/-- Every transfer between the program and a file is complete. -/
def World.Complete (W : World) : Prop := ∀ k, (W.answer k).short = none

namespace Sub
variable {W : World} {u : Sub} {path : Path} {header : List UInt8} {l : Log UInt8}

/-- Tracing is active, and buffer and file are the log `l`. -/
structure Holds (u : Sub) (path : Path) (header : List UInt8) (l : Log UInt8) : Prop where
  trace : ∃ t, u.trace = some t ∧ t.active = true ∧ t.file = some path ∧
    t.buffer = some ⟨l.buffer.flatten, traceBufferCount, l.buffer.length, traceRecordSize⟩
  sized : ∀ r ∈ l.buffer, r.length = traceRecordSize
  file : u.files path = some (header ++ l.disk)

theorem Holds.length_flatten (h : Holds u path header l) :
    l.buffer.flatten.length = l.buffer.length * traceRecordSize := by
  rw [Bytes.length_flatten_blocks h.sized, Nat.mul_comm]

/-- The bytes of the file behind the header. -/
def onDisk (u : Sub) (path : Path) : List UInt8 := ((u.files path).getD []).drop traceHeaderSize

/-- The bytes in the buffer. -/
def inBuffer (u : Sub) : List UInt8 := ((u.trace.bind TraceState.buffer).map TraceBuffer.buffer).getD []

theorem Holds.onDisk (h : u.Holds path header l) (hlen : header.length = traceHeaderSize) :
    u.onDisk path = l.disk := by
  rw [Sub.onDisk, h.file]
  exact List.drop_left' hlen

theorem Holds.inBuffer (h : u.Holds path header l) : u.inBuffer = l.buffer.flatten := by
  obtain ⟨t, ht, -, -, hbuf⟩ := h.trace
  rw [Sub.inBuffer, ht, Option.bind_some, hbuf]
  rfl

theorem traceFlush_mode (W : World) (u : Sub) : (u.traceFlush W).mode = u.mode :=
  congrArg (fun c => c.1.1) (frame_traceFlush W u)

/-- **`gth_trace_flush` writes the buffer**, as far as `fwrite` goes. -/
theorem Holds.flush (h : Holds u path header l) : Holds (u.traceFlush W) path header
    (l.flush ((W.answer u.calls).transferred l.buffer.flatten.length)) := by
  obtain ⟨t, ht, hactive, hfile, hbuf⟩ := h.trace
  have hflush : u.traceFlush W =
      { (u.traceBufferFlush W
          ⟨l.buffer.flatten, traceBufferCount, l.buffer.length, traceRecordSize⟩ path).2 with
        trace := some { t with buffer := some (u.traceBufferFlush W
          ⟨l.buffer.flatten, traceBufferCount, l.buffer.length, traceRecordSize⟩ path).1 } } := by
    rw [traceFlush, ht]
    dsimp only
    rw [hfile, hbuf]
  rw [hflush]
  by_cases hzero : l.buffer.length = 0
  · -- nothing to write
    obtain hnil := List.length_eq_zero_iff.mp hzero
    have hl : ∀ k, l.flush k = l := fun k => by
      rcases l with ⟨disk, buffer⟩
      obtain rfl : buffer = [] := hnil
      simp [Log.flush]
    rw [hl, traceBufferFlush, if_pos hzero]
    exact ⟨⟨_, rfl, hactive, hfile, rfl⟩, h.sized, h.file⟩
  · have hle := (W.answer u.calls).transferred_le l.buffer.flatten.length
    have hdisk : ((u.files path).getD [] ++ l.buffer.flatten.take
        ((W.answer u.calls).transferred l.buffer.flatten.length))
        = header ++ (l.flush ((W.answer u.calls).transferred l.buffer.flatten.length)).disk := by
      rw [h.file]
      exact List.append_assoc _ _ _
    rw [traceBufferFlush, if_neg hzero]
    dsimp only [fwrite, ask]
    by_cases hall : (W.answer u.calls).transferred l.buffer.flatten.length
        = l.buffer.length * traceRecordSize
    · rw [if_neg (not_not_intro hall)]
      have hk := Nat.le_of_eq (h.length_flatten.trans hall.symm)
      refine ⟨⟨_, rfl, hactive, hfile, ?_⟩, ?_, ?_⟩
      · rw [WriteBehind.Log.flush_all hk]
        rfl
      · rw [WriteBehind.Log.flush_all hk]
        nofun
      · show Function.update u.files path _ path = _
        rw [Function.update_self, hdisk]
    · rw [if_pos hall]
      have hk : ¬ l.buffer.flatten.length
          ≤ (W.answer u.calls).transferred l.buffer.flatten.length :=
        fun hk => hall ((Nat.le_antisymm hle hk).trans h.length_flatten)
      have hbuffer : (l.flush ((W.answer u.calls).transferred l.buffer.flatten.length)).buffer
          = l.buffer := if_neg hk
      refine ⟨⟨_, rfl, hactive, hfile, ?_⟩, ?_, ?_⟩
      · rw [hbuffer]
      · rw [hbuffer]
        exact h.sized
      · show Function.update u.files path _ path = _
        rw [Function.update_self, hdisk]

/-- The buffer takes a record if it has room. -/
theorem Holds.traceAppend (h : Holds u path header l) {r : List UInt8}
    (hr : r.length = traceRecordSize) :
    (l.buffer.length < traceBufferCount ∧ ∃ u', u.traceAppend r = some u' ∧
      Holds u' path header { l with buffer := l.buffer ++ [r] }) ∨
    (¬ l.buffer.length < traceBufferCount ∧ u.traceAppend r = none) := by
  obtain ⟨t, ht, hactive, hfile, hbuf⟩ := h.trace
  by_cases hroom : l.buffer.length < traceBufferCount
  · left
    have hfull : TraceBuffer.traceBufferIsFull
        ⟨l.buffer.flatten, traceBufferCount, l.buffer.length, traceRecordSize⟩ = false :=
      decide_eq_false (Nat.not_le.mpr hroom)
    refine ⟨hroom, { u with trace := some { t with
      buffer := some ⟨l.buffer.flatten ++ r, traceBufferCount, l.buffer.length + 1, traceRecordSize⟩
      eventCount := incr64 t.eventCount } }, ?_, ⟨_, rfl, hactive, hfile, ?_⟩, ?_, h.file⟩
    · rw [Sub.traceAppend, ht]
      dsimp only
      rw [hbuf, Option.bind_some, TraceBuffer.traceBufferAppend, hfull]
      rfl
    · simp
    · intro r' hr'
      rcases List.mem_append.mp hr' with hr' | hr'
      · exact h.sized r' hr'
      · rw [List.mem_singleton.mp hr']
        exact hr
  · right
    have hfull : TraceBuffer.traceBufferIsFull
        ⟨l.buffer.flatten, traceBufferCount, l.buffer.length, traceRecordSize⟩ = true :=
      decide_eq_true (Nat.not_lt.mp hroom)
    refine ⟨hroom, ?_⟩
    rw [Sub.traceAppend, ht]
    dsimp only
    rw [hbuf, Option.bind_some, TraceBuffer.traceBufferAppend, hfull]
    rfl

/-- The record that `gth_trace_record` builds for the event `e`. -/
def encode (W : World) (u : Sub) (e : Event) : List UInt8 :=
  e.record ((W.answer u.calls).time % 2 ^ 64)

theorem traceRecord_of_replay (W : World) (h : u.mode = .replay) (e : Event) :
    u.traceRecord W e = u := by
  unfold traceRecord
  split
  · rfl
  · split <;> rfl

theorem traceRecord_mode (W : World) (u : Sub) (e : Event) :
    (u.traceRecord W e).mode = u.mode := congrArg (fun c => c.1.1) (frame_traceRecord W u e)

/-- **`gth_trace_record` adds its record**, writing the buffer first when it is full. -/
theorem Holds.record (h : Holds u path header l) (hmode : u.mode ≠ .replay) (e : Event) :
    Holds (u.traceRecord W e) path header (l.append traceBufferCount (u.encode W e)
      ((W.answer (u.calls + 1)).transferred l.buffer.flatten.length)) := by
  obtain ⟨t, ht, hactive, hfile, hbuf⟩ := h.trace
  -- the time stamp is taken first
  have hasked : Holds { u with calls := u.calls + 1 } path header l := ⟨h.trace, h.sized, h.file⟩
  have hr : (u.encode W e).length = traceRecordSize := e.length_record _
  have hrecord : u.traceRecord W e
      = (({ u with calls := u.calls + 1 } : Sub).traceAppend (u.encode W e)).getD
          (((({ u with calls := u.calls + 1 } : Sub).traceFlush W).traceAppend (u.encode W e)).getD
            (({ u with calls := u.calls + 1 } : Sub).traceFlush W)) := by
    conv_lhs => rw [traceRecord, ht]
    dsimp only
    rw [if_neg (by rw [hactive]; exact Bool.noConfusion), if_neg hmode,
      if_neg (by rw [hbuf]; exact Option.some_ne_none _)]
    split
    · next u' hu' => exact (congrArg (Option.getD · _) hu').symm
    · next hnone => exact (congrArg (Option.getD · _) hnone).symm
  rw [hrecord]
  rcases hasked.traceAppend hr with ⟨hroom, u', hu', hheld⟩ | ⟨hfull, hnone⟩
  · rw [hu', WriteBehind.Log.append, if_pos hroom]
    exact hheld
  · -- buffer full: flush and retry
    rw [hnone, WriteBehind.Log.append, if_neg hfull]
    have hflushed := hasked.flush (W := W)
    dsimp only
    rcases hflushed.traceAppend hr with ⟨hroom, u', hu', hheld⟩ | ⟨hfull', hnone'⟩
    · rw [hu', if_pos hroom]
      exact hheld
    · rw [hnone', if_neg hfull']
      exact hflushed

/-! ## Recording with complete writes -/

/-- The trace holds the records of the events `es`. -/
def Traces (u : Sub) (path : Path) (header : List UInt8) (es : List Event) : Prop :=
  ∃ l rs, Holds u path header l ∧ l.Intact rs ∧ List.Forall₂ Encodes rs es

/-- The records of the trace: in the file, and behind them in the buffer. -/
def records (u : Sub) (path : Path) : List (List UInt8) :=
  Bytes.blocks traceRecordSize (u.onDisk path ++ u.inBuffer)

theorem Traces.records {es : List Event} (h : Traces u path header es)
    (hlen : header.length = traceHeaderSize) : List.Forall₂ Encodes (u.records path) es := by
  obtain ⟨l, rs, hheld, hintact, hrs⟩ := h
  rw [Sub.records, hheld.onDisk hlen, hheld.inBuffer, hintact,
    Bytes.blocks_flatten (by decide) (encodes_sized hrs)]
  exact hrs

theorem Traces.congr {u' : Sub} {es : List Event} (h : Traces u path header es)
    (htrace : u'.trace = u.trace) (hfiles : u'.files = u.files) : Traces u' path header es := by
  obtain ⟨l, rs, hheld, hrest⟩ := h
  exact ⟨l, rs, ⟨by rw [htrace]; exact hheld.trace, hheld.sized, by rw [hfiles]; exact hheld.file⟩,
    hrest⟩

theorem Traces.flush {es : List Event} (h : Traces u path header es) (hW : W.Complete) :
    Traces (u.traceFlush W) path header es := by
  obtain ⟨l, rs, hheld, hintact, hrs⟩ := h
  refine ⟨_, rs, hheld.flush, hintact.flush ?_, hrs⟩
  exact Nat.le_of_eq (Answer.transferred_of_complete (hW _) _).symm

theorem Traces.record {es : List Event} (h : Traces u path header es) (hW : W.Complete)
    (hmode : u.mode ≠ .replay) (e : Event) :
    Traces (u.traceRecord W e) path header (es ++ [e]) ∧ (u.traceRecord W e).mode ≠ .replay := by
  obtain ⟨l, rs, hheld, hintact, hrs⟩ := h
  refine ⟨⟨_, rs ++ [u.encode W e], hheld.record hmode e, ?_, ?_⟩,
    traceRecord_mode W u e ▸ hmode⟩
  · exact hintact.append (by decide) fun _ =>
      Nat.le_of_eq (Answer.transferred_of_complete (hW _) _).symm
  · exact List.rel_append hrs (.cons ⟨_, rfl⟩ .nil)

/-- What is left when the trace is closed: the file, with all the records. -/
theorem Traces.written {es : List Event} (h : Traces u path header es) (hW : W.Complete) :
    ∃ rs, (u.traceFlush W).files path = some (header ++ rs.flatten) ∧
      List.Forall₂ Encodes rs es := by
  obtain ⟨l, rs, hheld, hintact, hrs⟩ := h
  have hk := Nat.le_of_eq
    (Answer.transferred_of_complete (hW u.calls) l.buffer.flatten.length).symm
  have hfile := (hheld.flush (W := W)).file
  rw [WriteBehind.Log.flush_all hk] at hfile
  exact ⟨rs, hfile.trans (congrArg (fun b => some (header ++ b)) hintact), hrs⟩

/-! ## Opening and closing -/

theorem length_headerBytes (time : Nat) : (headerBytes time).length = traceHeaderSize := by
  simp [headerBytes]

theorem traceInit_mode (W : World) (u : Sub) (initialized : Bool) :
    (u.traceInit W initialized).2.mode = u.mode :=
  congrArg (fun c => c.1.1) (frame_traceInit W u initialized)

theorem traceInit_trace {b : Bool} (h : (u.traceInit W b).1 = .ok) :
    (u.traceInit W b).2.trace ≠ none := by
  unfold traceInit at h ⊢
  split at h
  · nomatch h
  · rename_i hinit
    rw [if_neg hinit]
    split at h
    · nomatch h
    · rename_i htrace
      rw [if_neg htrace]
      dsimp only [ask] at h ⊢
      split at h
      · nomatch h
      · rename_i hok
        rw [if_neg hok]
        nofun

theorem traceWriteHeader_ok (hfile : u.files path = some [])
    (h : (u.traceWriteHeader W path).1 = .ok) :
    ∃ time, (u.traceWriteHeader W path).2.files path = some (headerBytes time) ∧
      (u.traceWriteHeader W path).2.mode = u.mode := by
  refine ⟨if (W.answer u.calls).ok then (W.answer u.calls).time % 2 ^ 64 else 0, ?_⟩
  unfold traceWriteHeader fwrite ask at h ⊢
  dsimp only at h ⊢
  generalize (if (W.answer u.calls).ok then (W.answer u.calls).time % 2 ^ 64 else 0) = time at h ⊢
  split at h
  · nomatch h
  · rename_i hall
    rw [if_neg hall, not_not.mp hall]
    refine ⟨?_, rfl⟩
    show Function.update u.files path _ path = _
    rw [Function.update_self, hfile,
      List.take_of_length_le (Nat.le_of_eq (length_headerBytes time))]
    rfl

theorem traceBufferCreate_spec (W : World) (u : Sub) :
    (u.traceBufferCreate W).2.files = u.files ∧ (u.traceBufferCreate W).2.mode = u.mode ∧
      ∀ buf, (u.traceBufferCreate W).1 = some buf →
        buf = ⟨[], traceBufferCount, 0, traceRecordSize⟩ := by
  unfold traceBufferCreate ask
  dsimp only
  split
  · exact ⟨rfl, rfl, nofun⟩
  · split
    · exact ⟨rfl, rfl, nofun⟩
    · exact ⟨rfl, rfl, fun buf hbuf => (Option.some.inj hbuf).symm⟩

/-- The second half of `gth_trace_start`: header, buffer, start time and `RUNTIME_INIT`. -/
theorem traceStartOpened_ok {t : TraceState} (hfile : u.files path = some [])
    (h : (u.traceStartOpened W t path).1 = .ok) :
    ∃ time u₀, Holds u₀ path (headerBytes time) ⟨[], []⟩ ∧ u₀.mode = u.mode ∧
      (u.traceStartOpened W t path).2 = u₀.traceRecord W ⟨.runtimeInit, 0, 0, 0⟩ := by
  have hheader := traceWriteHeader_ok (W := W) hfile
  unfold traceStartOpened at h ⊢
  generalize u.traceWriteHeader W path = r at h hheader ⊢
  obtain ⟨status, v⟩ := r
  dsimp only at h hheader ⊢
  by_cases hst : status = .ok
  · obtain ⟨time, hv, hvm⟩ := hheader hst
    rw [if_neg (not_not_intro hst)] at h ⊢
    obtain ⟨hfiles, hmode, hbuf⟩ := traceBufferCreate_spec W v
    generalize v.traceBufferCreate W = r at h hfiles hmode hbuf ⊢
    obtain ⟨buffer, w⟩ := r
    cases buffer with
    | none => nomatch h
    | some buf =>
      obtain rfl := hbuf buf rfl
      dsimp only
      refine ⟨time, _, ?_, ?_, rfl⟩
      · refine ⟨⟨_, rfl, rfl, rfl, rfl⟩, nofun, ?_⟩
        show w.files path = some (headerBytes time ++ [])
        rw [hfiles, List.append_nil]
        exact hv
      · exact hmode.trans hvm
  · rw [if_pos hst] at h
    exact absurd h hst

theorem traceStart_args {initialized : Bool}
    (h : (u.traceStart W initialized (some path)).1 = .ok) : initialized = true ∧ path ≠ [] := by
  unfold traceStart at h
  split at h
  · nomatch h
  · rename_i hinit
    split at h
    · nomatch h
    · nomatch h
    · rename_i path' hne hpath
      obtain rfl := Option.some.inj hpath
      exact ⟨Bool.not_eq_false _ ▸ hinit, hne⟩

/-- **A trace that has started** is an empty log behind a header; the last thing `gth_trace_start`
    does is to record `RUNTIME_INIT`. -/
theorem traceStart_ok {initialized : Bool} (h : (u.traceStart W initialized (some path)).1 = .ok) :
    ∃ time u₀, Holds u₀ path (headerBytes time) ⟨[], []⟩ ∧ u₀.mode = u.mode ∧
      (u.traceStart W initialized (some path)).2 = u₀.traceRecord W ⟨.runtimeInit, 0, 0, 0⟩ := by
  have hmode := traceInit_mode W u initialized
  have htrace := traceInit_trace (W := W) (u := u) (b := initialized)
  unfold traceStart at h ⊢
  split at h
  · nomatch h
  · rename_i hinit
    rw [if_neg hinit]
    split at h
    · nomatch h
    · nomatch h
    · rename_i path' _ hpath
      obtain rfl := Option.some.inj hpath
      generalize u.traceInit W initialized = r at h hmode htrace ⊢
      obtain ⟨status, v⟩ := r
      dsimp only at h hmode htrace ⊢
      split at h
      · rename_i hst
        exact absurd h hst.1
      · rename_i hst
        rw [if_neg hst]
        split at h
        · rename_i hnone
          exact absurd hnone (htrace h)
        · split at h
          · nomatch h
          · rename_i hclosed
            rw [if_neg hclosed]
            split at h
            · nomatch h
            · rename_i hopened
              rw [if_neg hopened]
              obtain ⟨time, u₀, hheld, hm, heq⟩ :=
                traceStartOpened_ok (Function.update_self path (some []) v.files) h
              exact ⟨time, u₀, hheld, hm.trans hmode, heq⟩

/-- `gth_trace_cleanup` writes what is in the buffer. -/
theorem traceCleanup_files (h : Holds u path header l) :
    (u.traceCleanup W).files = (u.traceFlush W).files := by
  obtain ⟨t, ht, hactive, -, -⟩ := h.trace
  rw [traceCleanup, ht]
  dsimp only
  rw [if_pos hactive]

/-- `gth_trace_stop` records `RUNTIME_SHUTDOWN` and writes what is in the buffer. -/
theorem traceStop_files (h : Holds u path header l) (hmode : u.mode ≠ .replay) :
    (u.traceStop W true).1 = .ok ∧ (u.traceStop W true).2.files
      = ((u.traceRecord W ⟨.runtimeShutdown, 0, 0, 0⟩).traceFlush W).files := by
  obtain ⟨t, ht, hactive, -, -⟩ := h.trace
  obtain ⟨t', ht', -, -, -⟩ :=
    ((h.record hmode ⟨.runtimeShutdown, 0, 0, 0⟩).flush (W := W)).trace
  rw [traceStop, if_neg nofun, ht]
  dsimp only
  rw [if_neg (by rw [hactive]; nofun)]
  refine ⟨rfl, ?_⟩
  dsimp only
  rw [ht', traceCleanup]
  rfl

/-- With complete writes the first record is that of `RUNTIME_INIT`. -/
theorem traceStart_traces (hW : W.Complete) {initialized : Bool} (hmode : u.mode ≠ .replay)
    (h : (u.traceStart W initialized (some path)).1 = .ok) :
    ∃ time, (u.traceStart W initialized (some path)).2.Traces path (headerBytes time)
        [⟨.runtimeInit, 0, 0, 0⟩] ∧
      (u.traceStart W initialized (some path)).2.mode ≠ .replay := by
  obtain ⟨time, u₀, hheld, hm, heq⟩ := traceStart_ok h
  have htraces : u₀.Traces path (headerBytes time) [] := ⟨_, [], hheld, rfl, .nil⟩
  rw [heq]
  exact ⟨time, htraces.record hW (hm ▸ hmode) _⟩

/-! ## The other calls, while a trace is open -/

/-- A trace is open on `path` and the mode is not `REPLAY`: what is emitted is recorded. -/
def Records (path : Path) (u : Sub) : Prop :=
  (u.trace.any fun t => t.active && decide (t.file = some path)) = true ∧ u.mode ≠ .replay

instance (path : Path) (u : Sub) : Decidable (u.Records path) := inferInstanceAs (Decidable (_ ∧ _))

theorem replayReadFile_frame (W : World) (u : Sub) (path : Path) :
    (u.replayReadFile W path).2.trace = u.trace ∧ (u.replayReadFile W path).2.files = u.files := by
  unfold replayReadFile
  dsimp only [ask]
  split
  · exact ⟨rfl, rfl⟩
  · split_ifs <;> exact ⟨rfl, rfl⟩

theorem replayInit_frame (W : World) (u : Sub) (initialized : Bool) (path : Option Path) :
    (u.replayInit W initialized path).2.trace = u.trace ∧
      (u.replayInit W initialized path).2.files = u.files := by
  unfold replayInit
  split
  · exact ⟨rfl, rfl⟩
  · split
    · exact ⟨rfl, rfl⟩
    · exact ⟨rfl, rfl⟩
    · rename_i p _
      have hread := replayReadFile_frame W u p
      split
      · exact ⟨rfl, rfl⟩
      · split
        · rename_i v hv
          rw [hv] at hread
          exact hread
        · rename_i data v hv
          rw [hv] at hread
          dsimp only [ask]
          split_ifs <;> exact hread

theorem replayFrom_frame (W : World) (u : Sub) (initialized : Bool) (path : Option Path) :
    (u.replayFrom W initialized path).2.trace = u.trace ∧
      (u.replayFrom W initialized path).2.files = u.files := by
  have hinit := replayInit_frame W u initialized path
  unfold replayFrom
  generalize u.replayInit W initialized path = r at hinit ⊢
  obtain ⟨status, v⟩ := r
  cases status <;> exact hinit

/-- An open trace is not opened again. -/
theorem traceStart_open {t : TraceState} (h : u.trace = some t) (hfile : t.file ≠ none)
    (initialized : Bool) (path : Option Path) :
    (u.traceStart W initialized path).2 = u := by
  have hinit : u.traceInit W initialized = (.estate, u) := by
    unfold traceInit
    rw [h, if_pos (c := some t ≠ none) nofun, ite_self]
  unfold traceStart
  split
  · rfl
  · split
    · rfl
    · rfl
    · rw [hinit]
      dsimp only
      rw [h, if_neg fun hst => hst.2 rfl]
      dsimp only
      rw [if_pos hfile]

theorem traceCleanup_trace (W : World) (u : Sub) : (u.traceCleanup W).trace = none := by
  unfold traceCleanup
  split
  · assumption
  · rfl

/-- Leaving a mode closes the trace, or leaves it alone. -/
theorem leaveMode_trace (W : World) (u : Sub) : (u.leaveMode W).trace = none ∨
    ((u.leaveMode W).trace = u.trace ∧ (u.leaveMode W).files = u.files) := by
  -- the other two clean-ups do not touch the trace
  have hrest : ∀ v : Sub, (if v.mode = .fuzz ∧ v.fuzz ≠ none then v.fuzzCleanup else v).trace
      = v.trace ∧ (if v.mode = .fuzz ∧ v.fuzz ≠ none then v.fuzzCleanup else v).files = v.files := by
    intro v
    split <;> exact ⟨rfl, rfl⟩
  have hrest' : ∀ v : Sub, (if v.mode = .replay ∧ v.replay ≠ none then v.replayCleanup else v).trace
      = v.trace ∧
      (if v.mode = .replay ∧ v.replay ≠ none then v.replayCleanup else v).files = v.files := by
    intro v
    split <;> exact ⟨rfl, rfl⟩
  unfold leaveMode
  dsimp only
  rw [(hrest _).1, (hrest' _).1, (hrest _).2, (hrest' _).2]
  split
  · exact Or.inl (traceCleanup_trace W u)
  · exact Or.inr ⟨rfl, rfl⟩

/-- `gth_trace_init` opens no trace. -/
theorem traceInit_records (W : World) (u : Sub) :
    (u.trace ≠ none ∧ (u.traceInit W true).2 = u) ∨
      ∀ path mode, ¬ ({ (u.traceInit W true).2 with mode := mode }).Records path := by
  unfold traceInit
  rw [if_neg nofun]
  by_cases h : u.trace = none
  · rw [if_neg (not_not_intro h)]
    dsimp only [ask]
    right
    rintro path mode ⟨hopen, -⟩
    split at hopen
    · dsimp only at hopen
      rw [h] at hopen
      nomatch hopen
    · nomatch hopen
  · rw [if_pos h]
    exact Or.inl ⟨h, rfl⟩

theorem fuzzInit_trace (W : World) (u : Sub) (seed : BitVec 64) :
    (u.fuzzInit W true seed).2.trace = u.trace ∧ (u.fuzzInit W true seed).2.files = u.files := by
  unfold fuzzInit
  dsimp only [ask]
  split_ifs <;> exact ⟨rfl, rfl⟩

/-- `gth_scheduler_set_mode` closes an open trace, or leaves it alone. -/
theorem schedulerSetMode_trace (W : World) (u : Sub) (initialized : Bool) (config : Config)
    (mode : Mode) :
    (∀ path, ¬ (u.schedulerSetMode W initialized config mode).2.Records path) ∨
    ((u.schedulerSetMode W initialized config mode).2.trace = u.trace ∧
      (u.schedulerSetMode W initialized config mode).2.files = u.files) := by
  cases initialized with
  | false => exact Or.inr ⟨rfl, rfl⟩
  | true =>
    -- what comes after the clean-up either leaves the trace alone, or has none
    suffices h : (∀ path, ¬ (u.schedulerSetMode W true config mode).2.Records path) ∨
        ((u.schedulerSetMode W true config mode).2.trace = (u.leaveMode W).trace ∧
          (u.schedulerSetMode W true config mode).2.files = (u.leaveMode W).files) by
      rcases h with h | ⟨htrace, hfiles⟩
      · exact Or.inl h
      · rcases leaveMode_trace W u with hnone | ⟨htrace', hfiles'⟩
        · refine Or.inl fun path hrec => ?_
          have hopen := hrec.1
          rw [htrace, hnone] at hopen
          nomatch hopen
        · exact Or.inr ⟨htrace.trans htrace', hfiles.trans hfiles'⟩
    rw [schedulerSetMode_eq]
    dsimp only
    cases mode with
    | normal => exact Or.inr ⟨rfl, rfl⟩
    | replay => exact Or.inr ⟨rfl, rfl⟩
    | record =>
      dsimp only
      have hinit := traceInit_records W { u.leaveMode W with mode := .record }
      generalize traceInit W { u.leaveMode W with mode := .record } true = res at hinit ⊢
      rcases hinit with ⟨-, heq⟩ | hno
      · right
        split <;> rw [heq] <;> exact ⟨rfl, rfl⟩
      · left
        intro path
        split
        · exact hno path .normal
        · exact hno path res.2.mode
    | fuzz =>
      right
      dsimp only
      generalize (if config.replaySeed.setWidth 64 = 0 then 123456789#64
        else config.replaySeed.setWidth 64) = seed
      have hinit := fuzzInit_trace W { u.leaveMode W with mode := .fuzz } seed
      split <;> exact hinit

end Sub

/-! ## Sequences of calls -/

/-- The calls that write to an open trace. -/
inductive TraceOp where
  | record (e : Event)
  | flush
  deriving DecidableEq

namespace TraceOp

def exec (W : World) (u : Sub) : TraceOp → Sub
  | .record e => u.traceRecord W e
  | .flush => u.traceFlush W

def event : TraceOp → Option Event
  | .record e => some e
  | .flush => none

end TraceOp

/-- **Recording**: with complete writes every call adds its record, wherever the flushes fall. -/
theorem Sub.Traces.ops {W : World} (hW : W.Complete) {path : Path} {header : List UInt8}
    (ops : List TraceOp) : ∀ {u : Sub} {es : List Event}, u.Traces path header es →
      u.mode ≠ .replay → (ops.foldl (TraceOp.exec W) u).Traces path header
        (es ++ ops.filterMap TraceOp.event) ∧ (ops.foldl (TraceOp.exec W) u).mode ≠ .replay := by
  induction ops with
  | nil =>
    intro u es h hmode
    exact ⟨by rw [List.filterMap_nil, List.append_nil]; exact h, hmode⟩
  | cons op ops ih =>
    intro u es h hmode
    cases op with
    | record e =>
      obtain ⟨h', hmode'⟩ := h.record hW hmode e
      obtain ⟨hrest, hm⟩ := ih h' hmode'
      rw [List.append_assoc] at hrest
      exact ⟨hrest, hm⟩
    | flush => exact ih (h.flush hW) (by rw [TraceOp.exec, Sub.traceFlush_mode]; exact hmode)

/-- **A call of the trace, replay and mode interface** that leaves the trace open leaves its records
    alone. -/
theorem State.subExec_traces {W : World} (hW : W.Complete) {s : State} {path : Path}
    {header : List UInt8} {es : List Event} (h : s.sub.Traces path header es) (c : SubCall)
    (hopen : (s.subExec W c).2.Records path) : (s.subExec W c).2.Traces path header es := by
  obtain ⟨l, rs, hheld, hrest⟩ := h
  obtain ⟨t, ht, hactive, hfile, -⟩ := hheld.trace
  have htraces : s.sub.Traces path header es := ⟨l, rs, hheld, hrest⟩
  cases c with
  | setMode mode =>
    obtain ⟨htrace, hfiles⟩ :=
      (Sub.schedulerSetMode_trace W s.sub s.core.initialized s.core.config mode).resolve_left
        fun hno => hno path hopen
    exact htraces.congr htrace hfiles
  | traceStart p =>
    have heq := Sub.traceStart_open (W := W) ht (by rw [hfile]; nofun) s.core.initialized p
    show (s.sub.traceStart W s.core.initialized p).2.Traces path header es
    rw [heq]
    exact htraces
  | traceStop =>
    change (s.sub.traceStop W s.core.initialized).2.Records path at hopen
    show (s.sub.traceStop W s.core.initialized).2.Traces path header es
    unfold Sub.traceStop at hopen ⊢
    split
    · exact htraces
    · rename_i hinit
      rw [if_neg hinit, ht] at hopen
      dsimp only at hopen
      rw [if_neg (by rw [hactive]; nofun)] at hopen
      have hclosed := hopen.1
      rw [Sub.traceCleanup_trace] at hclosed
      nomatch hclosed
  | traceFlush => exact htraces.flush hW
  | replayFrom p =>
    obtain ⟨htrace, hfiles⟩ := Sub.replayFrom_frame W s.sub s.core.initialized p
    exact htraces.congr htrace hfiles
  | fuzzSetRate rate =>
    have hframe : (s.sub.fuzzSetRate s.core.initialized rate).2.trace = s.sub.trace ∧
        (s.sub.fuzzSetRate s.core.initialized rate).2.files = s.sub.files := by
      unfold Sub.fuzzSetRate
      split
      · exact ⟨rfl, rfl⟩
      · split
        · exact ⟨rfl, rfl⟩
        · split <;> exact ⟨rfl, rfl⟩
    exact htraces.congr hframe.1 hframe.2

end Gth

/-
  The trace file and back.

  A recording that ends in `gth_trace_stop` or `gth_runtime_shutdown` leaves a file with a header
  and one record for each `gth_trace_record` call, in call order (`Sub.Traces.written`).  A file that
  starts with a header and at least one whole record of such a recording is accepted by
  `gth_replay_init`, wherever it was cut off, and `gth_replay_next_event` returns the records in
  front of the cut, one after the other (`replayInit_ok`, `replayReads_eq`).
-/
import Gthreads.TraceFile
import Gthreads.Runs

namespace Gth

/-! ## Reading -/

/-- Every call of the C library succeeds, and every transfer is complete. -/
def World.Able (W : World) : Prop := ∀ k, (W.answer k).ok = true ∧ (W.answer k).short = none

theorem replayValidateHeader_header (time : Nat) (body : List UInt8) :
    replayValidateHeader (headerBytes time ++ body) = true := by
  obtain ⟨rest, hrest⟩ : ∃ rest, headerBytes time ++ body
      = Bytes.leBytes 4 traceMagic ++ (Bytes.leBytes 4 traceVersion ++ rest) := by
    refine ⟨Bytes.leBytes 8 time ++ (Bytes.leBytes 8 traceTimestampFreq
      ++ (Bytes.leBytes 4 0 ++ (Bytes.leBytes 4 0 ++ body))), ?_⟩
    simp only [headerBytes, List.append_assoc]
  have hmagic : Bytes.slice 0 4 (headerBytes time ++ body) = Bytes.leBytes 4 traceMagic := by
    rw [hrest]
    exact Bytes.slice_field (a := []) rfl (Bytes.length_leBytes _ _) _
  have hversion : Bytes.slice 4 4 (headerBytes time ++ body) = Bytes.leBytes 4 traceVersion := by
    rw [hrest]
    exact Bytes.slice_field (Bytes.length_leBytes _ _) (Bytes.length_leBytes _ _) _
  rw [replayValidateHeader, hmagic, hversion, Bytes.ofLe_leBytes, Bytes.ofLe_leBytes]
  rfl

theorem recordAt_header (time : Nat) (body : List UInt8) (i : Nat) :
    recordAt (headerBytes time ++ body) i = Bytes.block traceRecordSize i body := by
  rw [recordAt, List.drop_left' (Sub.length_headerBytes time)]

section
variable {rs : List (List UInt8)} {es : List Event}

/-- Record `i` of a file that was cut off behind it. -/
theorem recordAt_cut (hrs : ∀ r ∈ rs, r.length = traceRecordSize) (time : Nat) {m i : Nat}
    (hi : i < m / traceRecordSize) (hlen : i < rs.length) :
    recordAt (headerBytes time ++ rs.flatten.take m) i = rs.get ⟨i, hlen⟩ := by
  have hm : traceRecordSize * (i + 1) ≤ m :=
    (Nat.mul_le_mul_left _ hi).trans (Nat.mul_div_le m traceRecordSize)
  rw [recordAt_header, Bytes.block_take hm, Bytes.block_flatten rs hrs i hlen]

/-- **Every file of a recording is accepted**, cut off anywhere: it has as many records as fit. -/
theorem replayCountRecords_cut (h : List.Forall₂ Encodes rs es) (time : Nat) {m : Nat}
    (hm : m ≤ traceRecordSize * rs.length) :
    replayCountRecords (headerBytes time ++ rs.flatten.take m) = m / traceRecordSize := by
  have hsized := encodes_sized h
  have hlen : (headerBytes time ++ rs.flatten.take m).length = traceHeaderSize + m := by
    rw [List.length_append, Sub.length_headerBytes, List.length_take,
      Bytes.length_flatten_blocks hsized, Nat.min_eq_left hm]
  have hcount : (traceHeaderSize + m - traceHeaderSize) / traceRecordSize = m / traceRecordSize := by
    rw [Nat.add_sub_cancel_left]
  have hall : ((List.range (m / traceRecordSize)).all fun i => traceValidateRecord
      (recordAt (headerBytes time ++ rs.flatten.take m) i)) = true := by
    refine List.all_eq_true.mpr fun i hi => ?_
    have hi := List.mem_range.mp hi
    have hilen : i < rs.length := by
      have := Nat.div_le_of_le_mul hm
      omega
    rw [recordAt_cut hsized time hi hilen]
    obtain ⟨e, he⟩ := encodes_mem h _ (List.get_mem rs ⟨i, hilen⟩)
    exact he.fields.2.1
  rw [replayCountRecords, hlen, if_neg (by omega), replayValidateHeader_header, if_neg nofun, hcount]
  exact if_pos hall

/-- `gth_replay_init` on the first `32 + m` bytes of a recording, with a whole record in them. -/
theorem replayInit_ok {W : World} (hW : W.Able) (h : List.Forall₂ Encodes rs es) (time : Nat)
    {m : Nat} (hm : m ≤ traceRecordSize * rs.length) (hone : traceRecordSize ≤ m)
    (hmax : traceHeaderSize + m ≤ replayMaxFileSize) {u : Sub} {path : Path} (hpath : path ≠ [])
    (hreplay : u.replay = none)
    (hfile : u.files path = some (headerBytes time ++ rs.flatten.take m)) :
    u.replayInit W true (some path) = (.ok, { u with
      replay := some ⟨headerBytes time ++ rs.flatten.take m, m / traceRecordSize, 0, false, 0⟩
      calls := u.calls + 5 }) := by
  have hlen : (headerBytes time ++ rs.flatten.take m).length = traceHeaderSize + m := by
    rw [List.length_append, Sub.length_headerBytes, List.length_take,
      Bytes.length_flatten_blocks (encodes_sized h), Nat.min_eq_left hm]
  have hok : ∀ k, ¬ (W.answer k).ok = false := fun k => by
    rw [(hW k).1]
    nofun
  have hread : u.replayReadFile W path
      = (some (headerBytes time ++ rs.flatten.take m), { u with calls := u.calls + 4 }) := by
    unfold Sub.replayReadFile Sub.ask
    dsimp only
    rw [hfile]
    dsimp only
    rw [if_neg (hok _), if_neg (hok _), if_neg (by omega), if_neg (by omega), if_neg (hok _),
      if_neg (not_not_intro (Answer.transferred_of_complete (hW _).2 _))]
  have hcount : ¬ m / traceRecordSize = 0 := by
    have := Nat.div_pos hone (show 0 < traceRecordSize by decide)
    omega
  unfold Sub.replayInit
  rw [if_neg nofun]
  split
  · rename_i heq
    nomatch heq
  · rename_i heq
    exact absurd (Option.some.inj heq) hpath
  · rename_i path' _ heq
    obtain rfl := Option.some.inj heq
    rw [if_neg (not_not_intro hreplay), hread]
    dsimp only
    rw [replayCountRecords_cut h time hm, if_neg hcount]
    unfold Sub.ask
    dsimp only
    rw [if_neg (hok _)]

end

/-! ## Successive events -/

/-- What `n` successive calls of `gth_replay_next_event` return; `none` is a result of 0. -/
def ReplayState.replayReads (r : ReplayState) : Nat → List (Option (List UInt8))
  | 0 => []
  | n + 1 => r.replayNextEvent.1 :: r.replayNextEvent.2.replayReads n

/-- The records from the cursor on. -/
def ReplayState.rest (r : ReplayState) : List (List UInt8) :=
  (List.range' r.currentIdx (r.eventCount - r.currentIdx)).map (recordAt r.events)

namespace ReplayState
variable {r : ReplayState}

theorem peek_none (h : r.replayPeekEvent = none) : r.rest = [] ∧ r.replayNextEvent = (none, r) := by
  refine ⟨?_, by rw [replayNextEvent, h]⟩
  have hend : r.eventCount ≤ r.currentIdx := by
    by_contra hlt
    rw [replayPeekEvent, if_neg hlt] at h
    nomatch h
  rw [rest, Nat.sub_eq_zero_of_le hend]
  rfl

theorem peek_some {record : List UInt8} (h : r.replayPeekEvent = some record) :
    r.rest = record :: r.replayNextEvent.2.rest ∧ r.replayNextEvent.1 = some record ∧
      r.replayNextEvent.2.diverged = r.diverged := by
  have hlt : ¬ r.eventCount ≤ r.currentIdx := by
    intro hle
    rw [replayPeekEvent, if_pos hle] at h
    nomatch h
  have hrecord : recordAt r.events r.currentIdx = record := by
    rw [replayPeekEvent, if_neg hlt] at h
    exact Option.some.inj h
  rw [replayNextEvent, h]
  refine ⟨?_, rfl, rfl⟩
  show (List.range' r.currentIdx (r.eventCount - r.currentIdx)).map _
    = record :: (List.range' (r.currentIdx + 1) (r.eventCount - (r.currentIdx + 1))).map _
  rw [show r.eventCount - r.currentIdx = (r.eventCount - (r.currentIdx + 1)) + 1 by omega,
    List.range'_succ, List.map_cons, hrecord]

/-- **The cursor returns the records in order, and then nothing.** -/
theorem replayReads_eq (n : Nat) : ∀ r : ReplayState,
    r.replayReads (r.rest.length + n) = r.rest.map some ++ List.replicate n none := by
  suffices h : ∀ (records : List (List UInt8)) (r : ReplayState), r.rest = records →
      r.replayReads (records.length + n) = records.map some ++ List.replicate n none from
    fun r => h r.rest r rfl
  intro records
  induction records with
  | nil =>
    intro r hr
    have hnone : r.replayPeekEvent = none := by
      cases hp : r.replayPeekEvent with
      | none => rfl
      | some record => exact nomatch (peek_some hp).1.symm.trans hr
    rw [List.length_nil, Nat.zero_add, List.map_nil, List.nil_append]
    clear hr
    induction n with
    | zero => rfl
    | succ n ih =>
      rw [replayReads, (peek_none hnone).2, ih]
      rfl
  | cons record records ih =>
    intro r hr
    cases hp : r.replayPeekEvent with
    | none => exact nomatch (peek_none hp).1.symm.trans hr
    | some record' =>
      obtain ⟨hrest, hnext, -⟩ := peek_some hp
      obtain ⟨rfl, htail⟩ := List.cons.inj (hrest.symm.trans hr)
      rw [List.length_cons, Nat.add_right_comm, replayReads, hnext, ih _ htail]
      rfl

/-- In a file of whole records that was cut off, the cursor starts with the records left. -/
theorem rest_cut {rs : List (List UInt8)} (hrs : ∀ r ∈ rs, r.length = traceRecordSize) (time : Nat)
    {m : Nat} (hm : m ≤ traceRecordSize * rs.length) (diverged : Bool) (last : Nat) :
    rest ⟨headerBytes time ++ rs.flatten.take m, m / traceRecordSize, 0, diverged, last⟩
      = rs.take (m / traceRecordSize) := by
  have hcount := Nat.div_le_of_le_mul hm
  refine List.ext_getElem ?_ fun i hi hi' => ?_
  · rw [rest, List.length_map, List.length_range', List.length_take, Nat.min_eq_left hcount]
    exact Nat.sub_zero _
  · have hi' := List.length_take ▸ hi'
    have hlt : i < m / traceRecordSize := Nat.lt_of_lt_of_le hi' (Nat.min_le_left _ _)
    have hget := recordAt_cut hrs time hlt (Nat.lt_of_lt_of_le hlt hcount)
    simp only [rest, List.getElem_map, List.getElem_range', List.getElem_take, Nat.zero_add,
      Nat.one_mul]
    exact hget

end ReplayState

/-! ## The round trip -/

/-- The three values `gth_replay_next_event` hands out. -/
def recordFields (record : List UInt8) : Nat × Nat × Nat :=
  (recordType record, recordTid record, recordData record)

/-- Type, tid and packed payload of an event. -/
def Event.fields (e : Event) : Nat × Nat × Nat :=
  (e.type.code, e.tid, packData e.type e.data1 e.data2 % 2 ^ 64)

theorem recordFields_encodes {rs : List (List UInt8)} {es : List Event}
    (h : List.Forall₂ Encodes rs es) (htids : ∀ e ∈ es, e.tid < 2 ^ 32) :
    rs.map recordFields = es.map Event.fields := by
  induction h with
  | nil => rfl
  | @cons r e rs es he _ ih =>
    obtain ⟨htid, hrest⟩ := List.forall_mem_cons.mp htids
    obtain ⟨-, -, htype, htid', hdata⟩ := he.fields
    rw [List.map_cons, List.map_cons, ih hrest, recordFields, htype, htid', hdata,
      Nat.mod_eq_of_lt htid]
    rfl

/-- The two ways to end a recording. -/
inductive TraceEnd where
  | stop
  | shutdown

namespace TraceEnd

/-- `gth_trace_stop` or `gth_runtime_shutdown`. -/
def exec (W : World) (s : State) : TraceEnd → State
  | .stop => { s with sub := (s.sub.traceStop W s.core.initialized).2 }
  | .shutdown => (runtimeShutdown W s).2

/-- What the end itself records. -/
def events : TraceEnd → List Event
  | .stop => [⟨.runtimeShutdown, 0, 0, 0⟩]
  | .shutdown => []

/-- Both ends leave the whole recording in the file. -/
theorem written {W : World} (hW : W.Complete) (ending : TraceEnd) {s : State} {path : Path}
    {header : List UInt8} {es : List Event} (hinit : s.core.initialized = true)
    (h : s.sub.Traces path header es) (hmode : s.sub.mode ≠ .replay) :
    ∃ rs, (ending.exec W s).sub.files path = some (header ++ rs.flatten) ∧
      List.Forall₂ Encodes rs (es ++ ending.events) := by
  obtain ⟨l, rs, hheld, hrest⟩ := h
  cases ending with
  | stop =>
    have hstop := (Sub.traceStop_files (W := W) hheld hmode).2
    obtain ⟨rs', hfile, hrs'⟩ := ((show s.sub.Traces path header es from
      ⟨l, rs, hheld, hrest⟩).record hW hmode ⟨.runtimeShutdown, 0, 0, 0⟩).1.written hW
    refine ⟨rs', ?_, hrs'⟩
    show (s.sub.traceStop W s.core.initialized).2.files path = _
    rw [hinit, hstop]
    exact hfile
  | shutdown =>
    have hcleanup := Sub.traceCleanup_files (W := W) hheld
    obtain ⟨rs', hfile, hrs'⟩ :=
      (show s.sub.Traces path header es from ⟨l, rs, hheld, hrest⟩).written hW
    obtain ⟨t, ht, -⟩ := hheld.trace
    refine ⟨rs', ?_, by rw [events, List.append_nil]; exact hrs'⟩
    have hfiles : ((runtimeShutdown W s).2).sub.files = (s.sub.traceCleanup W).files := by
      unfold runtimeShutdown
      rw [if_neg (by rw [hinit]; nofun), if_pos (by rw [ht]; nofun)]
      dsimp only
      split <;> split <;> rfl
    show ((runtimeShutdown W s).2).sub.files path = _
    rw [hfiles, hcleanup]
    exact hfile

end TraceEnd

/-- The state after `gth_trace_start(path)` and the calls `ops`. -/
def State.traced (W : World) (s : State) (path : Path) (ops : List TraceOp) : State :=
  let u := (s.sub.traceStart W s.core.initialized (some path)).2
  { s with sub := ops.foldl (TraceOp.exec W) u }

/-- **The round trip.**  A recording of any length leaves a file with its header and the records of
    its calls in order; and the file, cut off anywhere behind its first record, is accepted and
    read back: as many events as there are whole records, and then no more. -/
theorem trace_round_trip (W : World) (hW : W.Complete) (s : State) (path : Path)
    (ops : List TraceOp) (ending : TraceEnd) (hmode : s.sub.mode ≠ .replay)
    (hstart : (s.sub.traceStart W s.core.initialized (some path)).1 = .ok)
    (htids : ∀ e ∈ ops.filterMap TraceOp.event, e.tid < 2 ^ 32) :
    ∃ header rs file es, header.length = 32 ∧
      es = ⟨.runtimeInit, 0, 0, 0⟩ :: ops.filterMap TraceOp.event ++ ending.events ∧
      List.Forall₂ Encodes rs es ∧ file = header ++ rs.flatten ∧
      (ending.exec W (s.traced W path ops)).sub.files path = some file ∧
      (file.length ≤ 256 * 1024 * 1024 → ∀ L, 64 ≤ L → L ≤ file.length →
        ∀ (W' : World) (u : Sub) (path' : Path), W'.Able → path' ≠ [] → u.replay = none →
          u.files path' = some (file.take L) →
          ∃ u' r, u.replayInit W' true (some path') = (.ok, u') ∧ u'.replay = some r ∧
            r.eventCount = (L - 32) / 32 ∧
            ∀ n, (r.replayReads (r.eventCount + n)).map (Option.map recordFields)
              = (es.take r.eventCount).map (fun e => some e.fields) ++ List.replicate n none) := by
  obtain ⟨time, htraces, hm⟩ := Sub.traceStart_traces hW hmode hstart
  obtain ⟨hinit, -⟩ := Sub.traceStart_args hstart
  obtain ⟨hops, hm'⟩ := htraces.ops hW ops hm
  obtain ⟨rs, hfile, hrs⟩ := ending.written hW (s := s.traced W path ops) hinit hops hm'
  refine ⟨headerBytes time, rs, _, _, Sub.length_headerBytes time, rfl, hrs, rfl, hfile, ?_⟩
  intro hmax L hL hLlen W' u path' hW' hpath' hreplay hu
  have hsized := encodes_sized hrs
  have hlen : (headerBytes time ++ rs.flatten).length = 32 + 32 * rs.length := by
    rw [List.length_append, Sub.length_headerBytes, Bytes.length_flatten_blocks hsized]
  rw [hlen] at hmax hLlen
  -- the cut is behind the header
  have hcut : (headerBytes time ++ rs.flatten).take L
      = headerBytes time ++ rs.flatten.take (L - 32) := by
    rw [List.take_append, Sub.length_headerBytes,
      List.take_of_length_le (by rw [Sub.length_headerBytes]; show 32 ≤ L; omega)]
  have hm : L - 32 ≤ traceRecordSize * rs.length := by
    show L - 32 ≤ 32 * rs.length
    omega
  rw [hcut] at hu
  refine ⟨_, _, replayInit_ok hW' hrs time hm (by show 32 ≤ L - 32; omega)
    (by show 32 + (L - 32) ≤ 256 * 1024 * 1024; omega) hpath' hreplay hu, rfl, rfl, fun n => ?_⟩
  have hrest := ReplayState.rest_cut hsized time hm false 0
  have hreads := ReplayState.replayReads_eq n
    ⟨headerBytes time ++ rs.flatten.take (L - 32), (L - 32) / traceRecordSize, 0, false, 0⟩
  have hcount : (rs.take ((L - 32) / traceRecordSize)).length = (L - 32) / traceRecordSize := by
    rw [List.length_take, Nat.min_eq_left (Nat.div_le_of_le_mul hm)]
  have hall : ∀ e ∈ (⟨.runtimeInit, 0, 0, 0⟩ :: ops.filterMap TraceOp.event ++ ending.events
      : List Event), e.tid < 2 ^ 32 := by
    intro e he
    rcases List.mem_append.mp he with he | he
    · rcases List.mem_cons.mp he with rfl | he
      · exact Nat.two_pow_pos 32
      · exact htids e he
    · cases ending with
      | stop =>
        rw [List.mem_singleton.mp he]
        exact Nat.two_pow_pos 32
      | shutdown => nomatch he
  rw [hrest, hcount] at hreads
  rw [hreads, List.map_append, List.map_map, List.map_replicate]
  refine congrArg (· ++ _) ?_
  show ((rs.take _).map fun r => some (recordFields r)) = _
  have hfields := recordFields_encodes hrs hall
  calc ((rs.take ((L - 32) / traceRecordSize)).map fun r => some (recordFields r))
      = ((rs.map recordFields).take ((L - 32) / traceRecordSize)).map some := by
        rw [← List.map_take, List.map_map]
        rfl
    _ = ((⟨.runtimeInit, 0, 0, 0⟩ :: ops.filterMap TraceOp.event ++ ending.events
          : List Event).take ((L - 32) / traceRecordSize)).map fun e => some e.fields := by
        rw [hfields, ← List.map_take, List.map_map]
        rfl

/-- Two events, with a flush between them. -/
def sampleOps : List TraceOp :=
  [.record (traceThreadCreate 1), .flush, .record (traceContextSwitch 0 1)]

/-- The recording leaves four records; a copy of the file that breaks off in the third one is
    accepted, and the first two are read back. -/
theorem trace_round_trip_stop :
    (Sample.start.sub.traceStart Sample.world Sample.start.core.initialized (some [116])).1 = .ok ∧
    ∃ (header file : List UInt8) (rs : List (List UInt8)), header.length = 32 ∧
      file = header ++ rs.flatten ∧ rs.length = 4 ∧
      (TraceEnd.stop.exec Sample.world (Sample.start.traced Sample.world [116] sampleOps)).sub.files
        [116] = some file ∧
      ∃ u' r, Sub.replayInit Sample.world { files := fun _ => some (file.take 100) } true (some [1])
          = (.ok, u') ∧
        u'.replay = some r ∧ r.eventCount = 2 ∧
        (r.replayReads 3).map (Option.map recordFields)
          = [some (Event.fields ⟨.runtimeInit, 0, 0, 0⟩), some (traceThreadCreate 1).fields,
            none] := by
  have hstart : (Sample.start.sub.traceStart Sample.world Sample.start.core.initialized
      (some [116])).1 = .ok := by decide +kernel
  obtain ⟨header, rs, file, es, hlen, hes, hrs, hfile, hfiles, hback⟩ :=
    trace_round_trip Sample.world (fun _ => rfl) Sample.start [116] sampleOps .stop
      (by decide) hstart (by decide)
  have hfour : rs.length = 4 := by
    rw [hrs.length_eq, hes]
    rfl
  have hsize : file.length = 160 := by
    rw [hfile, List.length_append, hlen, Bytes.length_flatten_blocks (encodes_sized hrs), hfour]
    rfl
  obtain ⟨u', r, hinit, hr, hcount, hreads⟩ := hback (by rw [hsize]; decide) 100 (by decide)
    (by rw [hsize]; decide) Sample.world { files := fun _ => some (file.take 100) } [1]
    (fun _ => ⟨rfl, rfl⟩) (by decide) rfl rfl
  refine ⟨hstart, header, file, rs, hlen, hfile, hfour, hfiles, u', r, hinit, hr, hcount, ?_⟩
  have hthree := hreads 1
  rw [hcount, hes] at hthree
  exact hthree

end Gth

/-
  Writes that fail.

  `gth_trace_buffer_flush` keeps the whole batch when `fwrite` stops short, although a part of it is
  in the file already; the next flush writes the batch again from its start.  And a record that
  finds the buffer full while the batch cannot be written is dropped, although later records are
  not.

  So two things keep a trace in order: `fwrite` accepts a batch as a whole, or `gth_trace_flush`
  finds it refused as a whole (`TraceOp.Clean`).  Then file and buffer together are what was recorded
  (`Sub.Accounted.clean`).  The first call for which neither is true still leaves a prefix in the
  file, and it stays one if no byte is accepted any more (`TraceOp.Mute`).
-/
import Gthreads.TraceFile
import Gthreads.Runs

namespace Gth

open WriteBehind (Log)

/-! ## What is in the file, and what ought to be -/

/-- The number of records in the buffer. -/
def Sub.fill (u : Sub) : Nat := ((u.trace.bind TraceState.buffer).map TraceBuffer.count).getD 0

/-- The records of the `gth_trace_record` calls. -/
def TraceOp.records (W : World) (u : Sub) : TraceOp → List (List UInt8)
  | .record e => [u.encode W e]
  | .flush => []

/-- One call, together with the records of all calls so far. -/
def TraceOp.step (W : World) (s : Sub × List (List UInt8)) (op : TraceOp) :
    Option (Sub × List (List UInt8)) :=
  some (op.exec W s.1, s.2 ++ op.records W s.1)

/-- The file is a prefix of what was recorded. -/
def InOrder (path : Path) (s : Sub × List (List UInt8)) : Prop := s.1.onDisk path <+: s.2.flatten

instance (path : Path) (s : Sub × List (List UInt8)) : Decidable (InOrder path s) :=
  inferInstanceAs (Decidable (_ <+: _))

/-! ## What the C library answers -/

/-- How many bytes of the buffer `fwrite` accepts, if the call writes it: `gth_trace_flush` does when
    there is a record in it, and `gth_trace_record` does when it is full, after it has read the
    clock. -/
def TraceOp.accepted (W : World) (u : Sub) : TraceOp → Option Nat
  | .record _ =>
    if u.fill < traceBufferCount then none
    else some ((W.answer (u.calls + 1)).transferred u.inBuffer.length)
  | .flush =>
    if u.fill = 0 then none else some ((W.answer u.calls).transferred u.inBuffer.length)

/-- The buffer is written as a whole, or not at all; but a record for which there is no room needs
    it written. -/
def TraceOp.Clean (W : World) (u : Sub) (op : TraceOp) : Prop :=
  op.accepted W u = none ∨ op.accepted W u = some u.inBuffer.length ∨
    op = .flush ∧ op.accepted W u = some 0

/-- No byte reaches the file. -/
def TraceOp.Mute (W : World) (u : Sub) (op : TraceOp) : Prop :=
  op.accepted W u = none ∨ op.accepted W u = some 0

instance (W : World) (u : Sub) (op : TraceOp) : Decidable (op.Clean W u) :=
  inferInstanceAs (Decidable (_ ∨ _))

instance (W : World) (u : Sub) (op : TraceOp) : Decidable (op.Mute W u) :=
  inferInstanceAs (Decidable (_ ∨ _))

/-- At most one write fails for good: all calls are clean, or they are up to some call, and after
    that call no byte reaches the file. -/
def FailsOnce (W : World) : Sub → List TraceOp → Prop
  | _, [] => True
  | u, op :: ops => op.Clean W u ∧ FailsOnce W (op.exec W u) ops ∨
      Exec.Along (fun u op => some (TraceOp.exec W u op)) (TraceOp.Mute W) (op.exec W u) ops

instance decidableFailsOnce (W : World) :
    ∀ (u : Sub) (ops : List TraceOp), Decidable (FailsOnce W u ops)
  | _, [] => isTrue trivial
  | u, op :: ops =>
    have := decidableFailsOnce W (op.exec W u) ops
    inferInstanceAs (Decidable (_ ∧ _ ∨ _))

/-! ## The log -/

section
variable {W : World} {u : Sub} {path : Path} {header : List UInt8} {l : Log UInt8}
  {rs : List (List UInt8)}

theorem Sub.Holds.fill (h : u.Holds path header l) : u.fill = l.buffer.length := by
  obtain ⟨t, ht, -, -, hbuf⟩ := h.trace
  rw [Sub.fill, ht, Option.bind_some, hbuf]
  rfl

theorem Sub.Holds.accepted_record (h : u.Holds path header l) (e : Event)
    (hfull : traceBufferCount ≤ l.buffer.length) : (TraceOp.record e).accepted W u
      = some ((W.answer (u.calls + 1)).transferred l.buffer.flatten.length) := by
  rw [TraceOp.accepted, h.fill, h.inBuffer, if_neg (Nat.not_lt.mpr hfull)]

theorem Sub.Holds.accepted_flush (h : u.Holds path header l) (hne : l.buffer ≠ []) :
    TraceOp.flush.accepted W u
      = some ((W.answer u.calls).transferred l.buffer.flatten.length) := by
  rw [TraceOp.accepted, h.fill, h.inBuffer, if_neg fun h0 => hne (List.length_eq_zero_iff.mp h0)]

/-- File and buffer together hold exactly the records `rs`; in replay mode nothing is recorded. -/
def Sub.Accounted (u : Sub) (path : Path) (header : List UInt8) (rs : List (List UInt8)) : Prop :=
  ∃ l, u.Holds path header l ∧
    (u.mode ≠ .replay ∧ l.Intact rs ∨ u.mode = .replay ∧ l = ⟨[], []⟩)

theorem Sub.Accounted.sound (h : u.Accounted path header rs) :
    ∃ l, u.Holds path header l ∧ l.Sound rs := by
  obtain ⟨l, hl, ⟨-, hintact⟩ | ⟨-, rfl⟩⟩ := h
  · exact ⟨l, hl, hintact.sound⟩
  · exact ⟨_, hl, List.nil_prefix⟩

/-- **Any call**: the file is still a prefix of what was recorded, however much is written. -/
theorem Sub.Accounted.any (h : u.Accounted path header rs) (op : TraceOp) :
    ∃ l, (op.exec W u).Holds path header l ∧ l.Sound (rs ++ op.records W u) := by
  obtain ⟨l, hl, ⟨hmode, hintact⟩ | ⟨hmode, rfl⟩⟩ := h
  · cases op with
    | record e => exact ⟨_, hl.record hmode e, hintact.append_sound⟩
    | flush => exact ⟨_, hl.flush, (hintact.flush_sound _).mono _⟩
  · cases op with
    | record e =>
      rw [TraceOp.exec, Sub.traceRecord_of_replay W hmode]
      exact ⟨_, hl, List.nil_prefix⟩
    | flush =>
      refine ⟨_, hl.flush, ?_⟩
      rw [Log.flush_all (Nat.zero_le _)]
      exact List.nil_prefix

/-- **A clean call** loses nothing and repeats nothing. -/
theorem Sub.Accounted.clean (h : u.Accounted path header rs) {op : TraceOp} (hop : op.Clean W u) :
    (op.exec W u).Accounted path header (rs ++ op.records W u) := by
  obtain ⟨l, hl, ⟨hmode, hintact⟩ | ⟨hmode, rfl⟩⟩ := h
  · cases op with
    | record e =>
      refine ⟨_, hl.record hmode e, Or.inl ⟨Sub.traceRecord_mode W u e ▸ hmode, ?_⟩⟩
      refine hintact.append (by decide) fun hfull => ?_
      rw [TraceOp.Clean, hl.accepted_record e hfull, hl.inBuffer] at hop
      rcases hop with hnone | hall | ⟨hflush, -⟩
      · cases hnone
      · exact Nat.le_of_eq (Option.some.inj hall).symm
      · cases hflush
    | flush =>
      refine ⟨_, hl.flush, Or.inl ⟨Sub.traceFlush_mode W u ▸ hmode, ?_⟩⟩
      rw [TraceOp.records, List.append_nil]
      by_cases hempty : l.buffer = []
      · exact hintact.flush (by rw [hempty]; exact Nat.zero_le _)
      rw [TraceOp.Clean, hl.accepted_flush hempty, hl.inBuffer] at hop
      rcases hop with hnone | hall | ⟨-, hrefused⟩
      · cases hnone
      · exact hintact.flush (Nat.le_of_eq (Option.some.inj hall).symm)
      · rw [Option.some.inj hrefused]
        exact hintact.flush_refused
  · cases op with
    | record e =>
      rw [TraceOp.exec, Sub.traceRecord_of_replay W hmode]
      exact ⟨_, hl, Or.inr ⟨hmode, rfl⟩⟩
    | flush =>
      refine ⟨_, hl.flush, Or.inr ⟨(Sub.traceFlush_mode W u).trans hmode, ?_⟩⟩
      rw [Log.flush_all (Nat.zero_le _)]
      rfl

/-- **A call that writes nothing** leaves the file alone. -/
theorem Sub.Holds.mute (h : u.Holds path header l) {op : TraceOp} (hop : op.Mute W u) :
    ∃ l', (op.exec W u).Holds path header l' ∧ l'.disk = l.disk := by
  cases op with
  | record e =>
    by_cases hmode : u.mode = .replay
    · rw [TraceOp.exec, Sub.traceRecord_of_replay W hmode]
      exact ⟨l, h, rfl⟩
    refine ⟨_, h.record hmode e, Log.disk_append fun hfull => ?_⟩
    rw [TraceOp.Mute, h.accepted_record e hfull] at hop
    exact Option.some.inj (hop.resolve_left (Option.some_ne_none _))
  | flush =>
    refine ⟨_, h.flush, ?_⟩
    by_cases hempty : l.buffer = []
    · rw [Log.flush_all (by rw [hempty]; exact Nat.zero_le _), hempty]
      exact List.append_nil _
    rw [TraceOp.Mute, h.accepted_flush hempty] at hop
    rw [Option.some.inj (hop.resolve_left (Option.some_ne_none _))]
    exact l.disk_flush_refused

/-! ## Sequences of calls -/

/-- Once no byte reaches the file any more, it stays a prefix. -/
theorem inOrder_of_mute (hlen : header.length = traceHeaderSize) (ops : List TraceOp) :
    ∀ {u : Sub} {rs : List (List UInt8)} {l : Log UInt8}, u.Holds path header l → l.Sound rs →
      Exec.Along (fun u op => some (TraceOp.exec W u op)) (TraceOp.Mute W) u ops →
      Exec.Always (TraceOp.step W) (InOrder path) (u, rs) ops := by
  have hhere : ∀ {u : Sub} {rs : List (List UInt8)} {l : Log UInt8}, u.Holds path header l →
      l.Sound rs → InOrder path (u, rs) := by
    intro u rs l hl hs
    rw [InOrder, hl.onDisk hlen]
    exact hs
  induction ops with
  | nil => exact fun hl hs _ => hhere hl hs
  | cons op ops ih =>
    intro u rs l hl hs hmute
    refine ⟨hhere hl hs, fun t ht => ?_⟩
    obtain rfl := Option.some.inj ht
    obtain ⟨l', hl', hdisk⟩ := hl.mute hmute.1
    refine ih hl' ?_ (hmute.2 _ rfl)
    rw [Log.Sound, hdisk]
    exact hs.mono _

/-- **A sequence in which at most one write fails.**  By induction on the calls: all records are
    accounted for up to the call that fails, and from there on nothing is written. -/
theorem inOrder_of_failsOnce (hlen : header.length = traceHeaderSize) (ops : List TraceOp) :
    ∀ {u : Sub} {rs : List (List UInt8)}, u.Accounted path header rs → FailsOnce W u ops →
      Exec.Always (TraceOp.step W) (InOrder path) (u, rs) ops := by
  have hhere : ∀ {u : Sub} {rs : List (List UInt8)}, u.Accounted path header rs →
      InOrder path (u, rs) := by
    intro u rs h
    obtain ⟨l, hl, hs⟩ := h.sound
    rw [InOrder, hl.onDisk hlen]
    exact hs
  induction ops with
  | nil => exact fun h _ => hhere h
  | cons op ops ih =>
    intro u rs h hfails
    refine ⟨hhere h, fun t ht => ?_⟩
    obtain rfl := Option.some.inj ht
    rcases hfails with ⟨hclean, hrest⟩ | hmute
    · exact ih (h.clean hclean) hrest
    · obtain ⟨l, hl, hs⟩ := h.any (W := W) op
      exact inOrder_of_mute hlen ops hl hs hmute

end

/-- **Failed writes do not corrupt a trace** if `fwrite` accepts a batch as a whole, or a
    `gth_trace_flush` finds it refused as a whole, up to a last write after which no byte is accepted
    any more.  `r₀` is the record of `RUNTIME_INIT`, which `gth_trace_start` makes. -/
theorem trace_in_order (W : World) (u : Sub) (initialized : Bool) (path : Path)
    (hstart : (u.traceStart W initialized (some path)).1 = .ok) (ops : List TraceOp)
    (hops : FailsOnce W (u.traceStart W initialized (some path)).2 ops) :
    ∃ r₀, Encodes r₀ ⟨.runtimeInit, 0, 0, 0⟩ ∧
      Exec.Always (TraceOp.step W) (InOrder path)
        ((u.traceStart W initialized (some path)).2, [r₀]) ops := by
  obtain ⟨time, u₀, hheld, -, heq⟩ := Sub.traceStart_ok hstart
  refine ⟨u₀.encode W ⟨.runtimeInit, 0, 0, 0⟩, ⟨_, rfl⟩, ?_⟩
  rw [heq] at hops ⊢
  refine inOrder_of_failsOnce (Sub.length_headerBytes time) ops ?_ hops
  -- `RUNTIME_INIT` is the first record of an empty log
  by_cases hmode : u₀.mode = .replay
  · rw [Sub.traceRecord_of_replay W hmode]
    exact ⟨_, hheld, Or.inr ⟨hmode, rfl⟩⟩
  · have hfirst : (⟨[], []⟩ : Log UInt8).Intact [] := rfl
    refine ⟨_, hheld.record hmode _, Or.inl ⟨Sub.traceRecord_mode W u₀ _ ▸ hmode, ?_⟩⟩
    exact hfirst.append (by decide) fun hfull => absurd hfull (by decide)

/-- A world in which write number `n` of the C library is refused and write number `m` stops after 10
    bytes; all others succeed. -/
def tornWorld (n m : Nat) : World :=
  ⟨fun k => ⟨true, 0, if k = n then some 0 else if k = m then some 10 else none⟩, 100⟩

/-- The first flush is refused, the second one writes two records, the third one stops short in the
    third record, and the fourth record stays in the buffer. -/
theorem trace_in_order_torn_end :
    (Sample.start.sub.traceStart (tornWorld 8 12) true (some [116])).1 = .ok ∧
    ∃ r₀, Encodes r₀ ⟨.runtimeInit, 0, 0, 0⟩ ∧
      Exec.Always (TraceOp.step (tornWorld 8 12)) (InOrder [116])
        ((Sample.start.sub.traceStart (tornWorld 8 12) true (some [116])).2, [r₀])
        [.flush, .record (traceThreadCreate 1), .flush, .record (traceThreadYield 1), .flush,
          .record (traceThreadExit 1 0)] :=
  ⟨by decide +kernel, trace_in_order (tornWorld 8 12) Sample.start.sub true [116]
    (by decide +kernel) _ (by decide +kernel)⟩

/-- Call number `n` of the C library, if it is a write, stops after 10 bytes; all others succeed. -/
def shortWorld (n : Nat) : World := ⟨fun k => ⟨true, 0, if k = n then some 10 else none⟩, 100⟩

/-- The record of `RUNTIME_INIT` in this world. -/
def initRecord : List UInt8 := Event.record ⟨.runtimeInit, 0, 0, 0⟩ 0

/-- **A batch that was written in part is written again**: after a flush that stops after 10 bytes
    and another one that succeeds, the file has 42 bytes of records, although only one record of
    32 bytes was made, and the records of the file start with the first 10 bytes twice. -/
theorem short_write_repeats :
    (Sample.start.sub.traceStart (shortWorld 8) true (some [116])).1 = .ok ∧
    ∃ s, Exec.exec (TraceOp.step (shortWorld 8))
        ((Sample.start.sub.traceStart (shortWorld 8) true (some [116])).2, [initRecord])
        [.flush, .flush] = some s ∧
      s.2 = [initRecord] ∧ s.1.onDisk [116] = initRecord.take 10 ++ initRecord ∧
      ¬ InOrder [116] s :=
  ⟨by decide +kernel, _, rfl, rfl, by decide +kernel, by decide +kernel⟩

end Gth

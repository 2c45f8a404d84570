/-
  Tampering with a trace file.

  `gth_replay_count_records` reads the magic number, the version and every complete record of the
  file.  One changed byte in the first eight makes the magic number or the version another one; one
  changed byte in a record makes its checksum or what it is compared with another one, because the
  fold of FNV-1a sees every single change (`Checksum.foldl_set_ne`).  Either way the count is 0, and
  `gth_replay_init` stops before it has changed anything.
-/
import Gthreads.Lib.Checksum
import Gthreads.Runs

namespace Gth

/-! ## Records -/

section
variable {record : List UInt8} {k : Nat} {b : UInt8}

/-- The FNV prime has an inverse modulo `2 ^ 32`. -/
theorem fnvPrime_unit : 16777619#32 * 899433627#32 = 1#32 := by decide

theorem ofNat_toNat_injective : Function.Injective fun b : UInt8 => BitVec.ofNat 32 b.toNat := by
  intro a b h
  have ha := a.toNat_lt
  have hb := b.toNat_lt
  have h := congrArg BitVec.toNat h
  rw [BitVec.toNat_ofNat, BitVec.toNat_ofNat, Nat.mod_eq_of_lt (by omega),
    Nat.mod_eq_of_lt (by omega)] at h
  exact UInt8.toNat_inj.mp h

/-- **The checksum sees a changed byte** among those it covers. -/
theorem traceCalcChecksum_set_ne (hk : k < 28) (hlen : k < record.length)
    (hne : record[k]? ≠ some b) : traceCalcChecksum (record.set k b) ≠ traceCalcChecksum record := by
  rw [traceCalcChecksum, traceCalcChecksum, List.take_set]
  refine Checksum.foldl_set_ne (fun b => Checksum.xorMul_state fnvPrime_unit _)
    (fun s => (Checksum.xorMul_entry fnvPrime_unit s).comp ofNat_toNat_injective) _ k _ ?_ ?_
  · rw [List.length_take]
    show k < min 28 record.length
    omega
  · rw [List.getElem?_take, if_pos (show k < traceRecordSize - 4 from hk)]
    exact hne

/-- **A record with one changed byte is not valid.** -/
theorem traceValidateRecord_set (hvalid : traceValidateRecord record = true)
    (hlen : record.length = traceRecordSize) (hk : k < traceRecordSize)
    (hne : record[k]? ≠ some b) : traceValidateRecord (record.set k b) = false := by
  have hstored : Bytes.ofLe (Bytes.slice 28 4 record) = (traceCalcChecksum record).toNat :=
    beq_iff_eq.mp hvalid
  refine beq_eq_false_iff_ne.mpr fun hsame => ?_
  by_cases hbody : k < 28
  · -- what is stored is unchanged, what is computed is not
    rw [Bytes.slice_set_before hbody, hstored] at hsame
    exact traceCalcChecksum_set_ne hbody (hlen ▸ hk) hne (BitVec.eq_of_toNat_eq hsame.symm)
  · obtain ⟨o, rfl⟩ := Nat.exists_eq_add_of_le (Nat.le_of_not_lt hbody)
    have hcover : traceCalcChecksum (record.set (28 + o) b) = traceCalcChecksum record := by
      rw [traceCalcChecksum, traceCalcChecksum, List.take_set]
      refine congrArg (List.foldl _ _) (List.set_eq_of_length_le ?_)
      have := List.length_take_le 28 record
      show (record.take 28).length ≤ 28 + o
      omega
    have ho : o < 4 := by
      have hk : 28 + o < 32 := hk
      omega
    have hslice : (Bytes.slice 28 4 record).length = 4 := by
      rw [Bytes.slice, List.length_take, List.length_drop, hlen]
      rfl
    rw [Bytes.slice_set, hcover, ← hstored] at hsame
    refine Bytes.ofLe_set_ne (by omega) ?_ hsame
    rw [Bytes.getElem?_slice ho]
    exact hne

end

/-! ## Files -/

section
variable {data : List UInt8} {k : Nat} {b : UInt8}

/-- **A header with a changed magic number or version is not valid.** -/
theorem replayValidateHeader_set (hvalid : replayValidateHeader data = true) (hk : k < 8)
    (hlen : traceHeaderSize ≤ data.length) (hne : data[k]? ≠ some b) :
    replayValidateHeader (data.set k b) = false := by
  obtain ⟨hmagic, hversion⟩ := Bool.and_eq_true_iff.mp hvalid
  have hfield : ∀ off, off + 4 ≤ 8 → (Bytes.slice off 4 data).length = 4 := by
    intro off hoff
    have hlen : 32 ≤ data.length := hlen
    rw [Bytes.slice, List.length_take, List.length_drop]
    omega
  rw [replayValidateHeader, Bool.and_eq_false_iff, beq_eq_false_iff_ne, beq_eq_false_iff_ne,
    ← beq_iff_eq.mp hmagic, ← beq_iff_eq.mp hversion]
  by_cases h4 : k < 4
  · left
    have hset : Bytes.slice 0 4 (data.set k b) = (Bytes.slice 0 4 data).set k b := by
      rw [← Bytes.slice_set, Nat.zero_add]
    rw [hset]
    refine Bytes.ofLe_set_ne (by rw [hfield 0 (by decide)]; exact h4) ?_
    rw [Bytes.getElem?_slice h4, Nat.zero_add]
    exact hne
  · right
    obtain ⟨o, rfl⟩ := Nat.exists_eq_add_of_le (Nat.le_of_not_lt h4)
    have ho : o < 4 := by omega
    rw [Bytes.slice_set]
    refine Bytes.ofLe_set_ne (by rw [hfield 4 (by decide)]; exact ho) ?_
    rw [Bytes.getElem?_slice ho]
    exact hne

/-- What `gth_replay_count_records` has found in a file that it accepts. -/
theorem replayCountRecords_accepted (h : replayCountRecords data ≠ 0) :
    traceHeaderSize ≤ data.length ∧ replayValidateHeader data = true ∧
      ∀ i < (data.length - traceHeaderSize) / traceRecordSize,
        traceValidateRecord (recordAt data i) = true := by
  unfold replayCountRecords at h
  by_cases hlen : data.length < traceHeaderSize
  · exact absurd (if_pos hlen) h
  rw [if_neg hlen] at h
  by_cases hheader : replayValidateHeader data = false
  · exact absurd (if_pos hheader) h
  rw [if_neg hheader] at h
  dsimp only at h
  refine ⟨Nat.le_of_not_lt hlen, Bool.of_not_eq_false hheader, fun i hi => ?_⟩
  by_contra hbad
  refine h (if_neg fun hall => hbad ?_)
  exact List.all_eq_true.mp hall i (List.mem_range.mpr hi)

theorem replayCountRecords_header (h : replayValidateHeader data = false) :
    replayCountRecords data = 0 := by
  unfold replayCountRecords
  rw [if_pos h, ite_self]

theorem replayCountRecords_record {i : Nat}
    (hi : i < (data.length - traceHeaderSize) / traceRecordSize)
    (h : traceValidateRecord (recordAt data i) = false) : replayCountRecords data = 0 := by
  have hall : ¬ ((List.range ((data.length - traceHeaderSize) / traceRecordSize)).all fun i =>
      traceValidateRecord (recordAt data i)) = true := by
    intro hall
    have hi := List.all_eq_true.mp hall i (List.mem_range.mpr hi)
    rw [h] at hi
    cases hi
  unfold replayCountRecords
  dsimp only
  rw [if_neg hall, ite_self, ite_self]

/-- A changed byte of a file is a changed byte of its record. -/
theorem recordAt_set (data : List UInt8) (i o : Nat) (b : UInt8) :
    recordAt (data.set (traceHeaderSize + (traceRecordSize * i + o)) b) i
      = (recordAt data i).set o b := by
  rw [recordAt, List.drop_set, if_neg (by omega), Nat.add_sub_cancel_left]
  exact Bytes.slice_set (data.drop traceHeaderSize) b

/-- **A file with one changed byte is not accepted.** -/
theorem replayCountRecords_set (h : replayCountRecords data ≠ 0)
    (hk : k < 8 ∨ traceHeaderSize ≤ k ∧
      k < traceHeaderSize + traceRecordSize * ((data.length - traceHeaderSize) / traceRecordSize))
    (hne : data[k]? ≠ some b) : replayCountRecords (data.set k b) = 0 := by
  obtain ⟨hlen, hheader, hrecords⟩ := replayCountRecords_accepted h
  rcases hk with hk | ⟨hge, hlt⟩
  · exact replayCountRecords_header (replayValidateHeader_set hheader hk hlen hne)
  · -- byte `o` of record `i`
    obtain ⟨n, rfl⟩ := Nat.exists_eq_add_of_le hge
    have hsplit : n = traceRecordSize * (n / traceRecordSize) + n % traceRecordSize :=
      (Nat.div_add_mod n traceRecordSize).symm
    have ho : n % traceRecordSize < traceRecordSize := Nat.mod_lt n (by decide)
    generalize n / traceRecordSize = i, n % traceRecordSize = o at hsplit ho
    subst hsplit
    have hi : i < (data.length - traceHeaderSize) / traceRecordSize := by
      simp only [traceHeaderSize, traceRecordSize] at hlt ⊢
      omega
    have hsize : (recordAt data i).length = traceRecordSize := by
      rw [recordAt, Bytes.block, Bytes.slice, List.length_take, List.length_drop, List.length_drop]
      simp only [traceHeaderSize, traceRecordSize] at hi ⊢
      omega
    have hbyte : (recordAt data i)[o]? = data[traceHeaderSize + (traceRecordSize * i + o)]? := by
      rw [recordAt, Bytes.block, Bytes.getElem?_slice ho, List.getElem?_drop]
    have hcount : i < ((data.set (traceHeaderSize + (traceRecordSize * i + o)) b).length
        - traceHeaderSize) / traceRecordSize := by
      rw [List.length_set]
      exact hi
    refine replayCountRecords_record hcount ?_
    rw [recordAt_set]
    refine traceValidateRecord_set (hrecords i hi) hsize ho ?_
    rw [hbyte]
    exact hne

end

/-! ## `gth_replay_from` -/

/-- What `gth_replay_init` makes of a file it accepts. -/
def ReplayState.loaded (data : List UInt8) : ReplayState :=
  ⟨data, replayCountRecords data, 0, false, 0⟩

namespace Sub
variable {W : World} {u : Sub} {path : Path} {data : List UInt8}

/-- Reading a file asks the C library, and that is all. -/
theorem replayReadFile_calls (W : World) (u : Sub) (path : Path) :
    ∃ calls, (u.replayReadFile W path).2 = { u with calls := calls } := by
  unfold replayReadFile ask
  dsimp only
  split
  · exact ⟨_, rfl⟩
  · split_ifs <;> exact ⟨_, rfl⟩

/-- A file that was read but not accepted. -/
theorem replayFrom_refused (hpath : path ≠ []) (hread : (u.replayReadFile W path).1 = some data)
    (hcount : replayCountRecords data = 0) :
    ∃ calls, u.replayFrom W true (some path) = (.estate, { u with calls := calls }) := by
  obtain ⟨calls, hcalls⟩ := replayReadFile_calls W u path
  have hinit : ∃ calls, u.replayInit W true (some path) = (.estate, { u with calls := calls }) := by
    unfold replayInit
    rw [if_neg (by decide : ¬ true = false)]
    cases path with
    | nil => exact absurd rfl hpath
    | cons c path =>
      by_cases hreplay : u.replay ≠ none
      · exact ⟨u.calls, if_pos hreplay⟩
      · refine ⟨calls, (if_neg hreplay).trans ?_⟩
        rw [show u.replayReadFile W (c :: path) = (some data, { u with calls := calls }) from
          Prod.ext hread hcalls]
        exact if_pos hcount
  obtain ⟨calls, hinit⟩ := hinit
  refine ⟨calls, ?_⟩
  rw [replayFrom, hinit]

/-- A file that was accepted has been read and counted, and is loaded. -/
theorem replayInit_accepted {initialized : Bool}
    (h : (u.replayInit W initialized (some path)).1 = .ok) :
    ∃ data, (u.replayReadFile W path).1 = some data ∧ replayCountRecords data ≠ 0 ∧
      (u.replayInit W initialized (some path)).2.replay = some (.loaded data) := by
  cases initialized with
  | false => cases h
  | true =>
    cases path with
    | nil => cases h
    | cons c path =>
      unfold replayInit at h ⊢
      rw [if_neg (by decide : ¬ true = false)] at h ⊢
      dsimp only at h ⊢
      by_cases hidle : u.replay ≠ none
      · rw [if_pos hidle] at h
        cases h
      rw [if_neg hidle] at h ⊢
      rcases hv : u.replayReadFile W (c :: path) with ⟨_ | data, v⟩
      · rw [hv] at h
        cases h
      rw [hv] at h
      dsimp only at h ⊢
      by_cases hzero : replayCountRecords data = 0
      · rw [if_pos hzero] at h
        cases h
      rw [if_neg hzero] at h ⊢
      refine ⟨data, rfl, hzero, ?_⟩
      by_cases hok : (v.ask W).1.ok = false
      · rw [if_pos hok] at h
        cases h
      · rw [if_neg hok]
        rfl

end Sub

/-- **Single-byte tampering is always detected.**  The file `data` was accepted by a
    `gth_replay_init`; a later `gth_replay_from` reads a file that differs from it in one byte of the
    magic number, of the version or of a complete record. -/
theorem tampering_detected (W₀ : World) (u₀ : Sub) (initialized : Bool) (path₀ : Path)
    (data : List UInt8) (hread₀ : (u₀.replayReadFile W₀ path₀).1 = some data)
    (haccept : (u₀.replayInit W₀ initialized (some path₀)).1 = .ok) (k : Nat) (b : UInt8)
    (hk : k < 8 ∨ 32 ≤ k ∧ k < 32 + 32 * ((data.length - 32) / 32)) (hne : data[k]? ≠ some b)
    (W : World) (u : Sub) (path : Path) (hpath : path ≠ [])
    (hread : (u.replayReadFile W path).1 = some (data.set k b)) :
    (u.replayFrom W true (some path)).1 = .estate ∧
      (u.replayFrom W true (some path)).2.mode = u.mode ∧
      (u.replayFrom W true (some path)).2.replay = u.replay ∧
      (u.replayFrom W true (some path)).2.traceEnabled = u.traceEnabled := by
  obtain ⟨data', hread', hcount, -⟩ := Sub.replayInit_accepted haccept
  obtain rfl : data' = data := Option.some.inj (hread'.symm.trans hread₀)
  obtain ⟨calls, hfrom⟩ :=
    Sub.replayFrom_refused hpath hread (replayCountRecords_set hcount hk hne)
  rw [hfrom]
  exact ⟨rfl, rfl, rfl, rfl⟩

namespace Sample

/-- A trace file with one record. -/
def shortTrace : List UInt8 := headerBytes 0 ++ recordBytes 0 1 0 0

/-- Two files: the trace, and the trace with another byte 40. -/
def twoTraces : Sub :=
  { files := fun path => if path = [1] then some shortTrace else some (shortTrace.set 40 7) }

end Sample

theorem tampering_detected_type :
    (Sample.twoTraces.replayFrom Sample.world true (some [1])).1 = .ok ∧
      (Sample.twoTraces.replayFrom Sample.world true (some [2])).1 = .estate ∧
      (Sample.twoTraces.replayFrom Sample.world true (some [2])).2.mode = .normal := by
  have haccept : (Sample.twoTraces.replayInit Sample.world true (some [1])).1 = .ok := by
    decide +kernel
  obtain ⟨hstatus, hmode, -, -⟩ := tampering_detected Sample.world Sample.twoTraces true [1]
    Sample.shortTrace (by decide +kernel) haccept 40 7 (by decide +kernel) (by decide +kernel)
    Sample.world Sample.twoTraces [2] (by decide) (by decide +kernel)
  exact ⟨by decide +kernel, hstatus, hmode⟩

end Gth

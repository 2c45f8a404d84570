/-
  The account of each function: its calls of `mmap`, `malloc`, `fopen` and their counterparts turn
  what the state before holds into what the state after holds.

  The functions and their calls are in `Gthreads.Resources`.  A triple for a function speaks of the
  part of the state that the function works on, the frame rule of the ledger adds the rest.
-/
import Gthreads.Housing
import Gthreads.Resources
import Gthreads.Runs
import Gthreads.TraceFile

namespace Gth
open Ledger (Settles)

/-- The kernel maps memory at address 0 for this call. -/
def Call.mapsNull : Call → Bool
  | .create _ _ _ _ env => decide (env.mmap = some 0)
  | _ => false

/-! ## Stacks are mapped and unmapped -/

namespace Core
variable {s t : Core} {x : Ctx}

/-- A free slot has no stack. -/
def Vacant (s : Core) : Prop := ∀ j, (s.threads j).state = .empty → (s.threads j).stack.held = 0

/-- No slot has a stack. -/
def Bare (s : Core) : Prop := ∀ j, (s.threads j).stack.held = 0

theorem Bare.held_eq (h : s.Bare) : s.held = 0 := Finset.sum_eq_zero fun j _ => h j

theorem Vacant.of_housed (h : s.Vacant) (ht : Housed s.threads t.threads) : t.Vacant := by
  intro j hj
  rw [ht.stack j]
  exact h j (ht.empty j hj)

theorem Bare.of_housed (h : s.Bare) (ht : Housed s.threads t.threads) : t.Bare := by
  intro j
  rw [ht.stack j]
  exact h j

theorem held_of_housed (ht : Housed s.threads t.threads) : s.held = t.held :=
  Finset.sum_congr rfl fun j _ => by rw [ht.stack j]

/-- A thread is stored in slot `i`. -/
theorem held_setThread (s : Core) (i : Slot) (r : ThreadRecord) :
    ∃ rest, s.held = (s.threads i).stack.held + rest ∧
      (s.setThread i r).held = r.stack.held + rest := by
  obtain ⟨rest, hs, ht⟩ := Ledger.sum_update (fun j => (s.threads j).stack.held) i r.stack.held
  refine ⟨rest, hs, ?_⟩
  rw [← ht]
  refine Finset.sum_congr rfl fun j _ => ?_
  by_cases hji : j = i
  · subst hji
    simp [setThread]
  · simp [setThread, hji]

theorem Vacant.set (h : s.Vacant) (i : Slot) {r : ThreadRecord}
    (hr : r.state = .empty → r.stack.held = 0) : (s.setThread i r).Vacant := by
  intro j
  by_cases hji : j = i
  · subst hji
    simpa [setThread] using hr
  · simpa [setThread, hji] using h j

theorem Bare.set (h : s.Bare) (i : Slot) {r : ThreadRecord} (hr : r.stack.held = 0) :
    (s.setThread i r).Bare := by
  intro j
  by_cases hji : j = i
  · subst hji
    simpa [setThread] using hr
  · simpa [setThread, hji] using h j

end Core

/-- `gth_stack_free`. -/
theorem StackAllocation.free_balances (stack : StackAllocation) :
    Settles stack.held (stackFreeOps stack) 0 := by
  unfold StackAllocation.held stackFreeOps
  split
  · exact .give _
  · exact .nil 0

/-- The stack that `gth_stack_allocate` makes of the mapping at `memory`. -/
def stackAt (pageSize size memory : BitVec 64) : StackAllocation :=
  { memory := memory, totalSize := alignUp size pageSize + pageSize,
    stackSize := alignUp size pageSize, guardPage := memory,
    stackTop := memory + (alignUp size pageSize + pageSize) }

/-- `gth_stack_allocate`: it fails and keeps no mapping, or the stack is the one at `memory`. -/
theorem stackAllocate_cases (pageSize size : BitVec 64) (env : MapEnv) :
    (∃ st, st ≠ .ok ∧ stackAllocate pageSize env size = (st, {}) ∧
      Settles 0 (stackAllocateOps pageSize env size) 0) ∨
    (∃ memory, env.mmap = some memory ∧ alignUp size pageSize + pageSize ≠ 0 ∧
      stackAllocate pageSize env size = (.ok, stackAt pageSize size memory) ∧
      stackAllocateOps pageSize env size
        = [.take (.mapping memory (alignUp size pageSize + pageSize))]) := by
  unfold stackAllocate stackAllocateOps
  by_cases hpage : pageSize = 0 ∨ isPowerOfTwo pageSize = false
  · rw [if_pos hpage, if_pos hpage]
    exact .inl ⟨.einternal, by decide, rfl, .nil 0⟩
  rw [if_neg hpage, if_neg hpage]
  by_cases hsize : size < 16 * 1024 ∨ maxStackSize < size
  · rw [if_pos hsize, if_pos hsize]
    exact .inl ⟨.einval, by decide, rfl, .nil 0⟩
  rw [if_neg hsize, if_neg hsize]
  dsimp only
  by_cases halign : alignUp size pageSize < size
  · rw [if_pos halign, if_pos halign]
    exact .inl ⟨.einval, by decide, rfl, .nil 0⟩
  rw [if_neg halign, if_neg halign]
  by_cases htotal : alignUp size pageSize + pageSize < alignUp size pageSize
  · rw [if_pos htotal, if_pos htotal]
    exact .inl ⟨.einval, by decide, rfl, .nil 0⟩
  rw [if_neg htotal, if_neg htotal]
  have hpos : alignUp size pageSize + pageSize ≠ 0 := by
    have hlow : ¬ size < 16 * 1024 := fun h => hsize (Or.inl h)
    bv_omega
  cases env.mmap with
  | none => exact .inl ⟨.enomem, by decide, rfl, .nil 0⟩
  | some memory =>
    dsimp only
    by_cases hprotect : env.mprotectOk = false
    · rw [if_pos hprotect, if_pos hprotect]
      exact .inl ⟨.einternal, by decide, rfl, .append (.take _) (.give _)⟩
    · rw [if_neg hprotect, if_neg hprotect]
      exact .inr ⟨memory, rfl, hpos, rfl, rfl⟩

namespace Core
variable {s t : Core} {x : Ctx}

/-- `gth_thread_create`, if the kernel does not map memory at address 0. -/
theorem threadCreate_balances (h : s.Vacant) (outTid : Bool) (attr : Option Nat) (fn arg : Nat)
    {env : MapEnv} (hnull : env.mmap ≠ some 0) :
    Settles s.held (s.threadCreateOps outTid fn env)
        (s.threadCreate outTid attr fn arg env).2.held ∧
      (s.threadCreate outTid attr fn arg env).2.Vacant := by
  unfold threadCreateOps threadCreate
  by_cases hinit : s.initialized = false
  · rw [if_pos hinit, if_pos hinit]
    exact ⟨.nil _, h⟩
  rw [if_neg hinit, if_neg hinit]
  by_cases hargs : outTid = false ∨ fn = 0
  · rw [if_pos hargs, if_pos hargs]
    exact ⟨.nil _, h⟩
  rw [if_neg hargs, if_neg hargs]
  cases halloc : allocThreadSlot s.threads with
  | none => exact ⟨.nil _, h⟩
  | some i =>
    have hfree : (s.threads i).stack.held = 0 := h i (allocThreadSlot_some halloc)
    dsimp only
    rcases stackAllocate_cases s.pageSize s.config.stackSizeBytes env with
      ⟨st, hst, hstack, hops⟩ | ⟨memory, hmap, hpos, hstack, hops⟩ <;> rw [hstack]
    · obtain ⟨rest, hs, ht⟩ := s.held_setThread i {}
      have hsettles : Settles s.held (stackAllocateOps s.pageSize env s.config.stackSizeBytes)
          (s.setThread i {}).held := by
        rw [hs, ht, hfree]
        exact hops.frame rest
      have hvacant : (s.setThread i {}).Vacant := h.set i fun _ => rfl
      cases st with
      | ok => exact absurd rfl hst
      | _ => exact ⟨hsettles, hvacant⟩
    · let stack := stackAt s.pageSize s.config.stackSizeBytes memory
      let r : ThreadRecord :=
        { tid := s.nextTid, fn := fn, arg := arg, priority := attr.getD 0, state := .ready,
          ctx := some ⟨.green i, .entry⟩, stack := stack, slotIndex := i }
      have hheld : r.stack.held = {.mapping memory stack.totalSize} := by
        refine if_pos ⟨?_, hpos⟩
        rintro rfl
        exact hnull hmap
      obtain ⟨rest, hs, ht⟩ := s.held_setThread i r
      constructor
      · show Settles s.held _ (s.setThread i r).held
        rw [hs, ht, hfree, hheld, hops]
        exact (Settles.take _).frame rest
      · show (s.setThread i r).Vacant
        exact h.set i nofun

/-! ## Joins -/

theorem joinFinish_balances (s : Core) (x : Ctx) (tid : Tid) (out : Bool) (i : Slot) :
    Settles s.held (s.joinFinishOps i) (s.joinFinish x tid out i).held := by
  obtain ⟨rest, hs, ht⟩ := s.held_setThread i {}
  have hfinish : (s.joinFinish x tid out i).held = (s.setThread i {}).held := by
    unfold joinFinish threadReleaseSlot
    dsimp only
    split_ifs <;> rfl
  rw [hfinish, hs, ht]
  exact (s.threads i).stack.free_balances.frame rest

theorem joinLoop_balances (s : Core) (x : Ctx) (tid : Tid) (out : Bool) (target : Slot) :
    Settles s.held (s.joinLoopOps tid target) (s.joinLoop x tid out target).held := by
  unfold joinLoopOps joinLoop
  by_cases hterm : threadIsTerminal (s.threads target).state = true
  · rw [if_pos hterm, if_pos hterm]
    cases findThread s.threads tid with
    | none => exact .nil _
    | some i => exact s.joinFinish_balances x tid out i
  · rw [if_neg hterm, if_neg hterm]
    exact .nil _

theorem threadJoin_balances (s : Core) (x : Ctx) (tid : Tid) (out : Bool) :
    Settles s.held (s.threadJoinOps tid) (s.threadJoin x tid out).held := by
  unfold threadJoinOps threadJoin
  by_cases hinit : s.initialized = false
  · rw [if_pos hinit, if_pos hinit]
    exact .nil _
  rw [if_neg hinit, if_neg hinit]
  by_cases hzero : tid = 0
  · rw [if_pos hzero, if_pos hzero]
    exact .nil _
  rw [if_neg hzero, if_neg hzero]
  by_cases hself : tid = s.currentTid
  · rw [if_pos hself, if_pos hself]
    exact .nil _
  rw [if_neg hself, if_neg hself]
  cases findThread s.threads tid with
  | none => exact .nil _
  | some i =>
    dsimp only
    by_cases hterm : threadIsTerminal (s.threads i).state = true
    · rw [if_pos hterm, if_pos hterm]
      exact s.joinFinish_balances x tid out i
    · rw [if_neg hterm, if_neg hterm]
      exact s.joinLoop_balances x tid out i

/-- A join frees a slot or leaves all as they are. -/
theorem JoinMove.threads {tid : Tid} {out : Bool} (h : JoinMove s x tid out t) :
    t.threads = s.threads ∨ ∃ i, t.threads = (s.setThread i {}).threads := by
  cases h with
  | fail st => exact Or.inl rfl
  | sched target => exact Or.inl rfl
  | free i runnable blocked retval _ => exact Or.inr ⟨i, rfl⟩

theorem JoinMove.vacant {tid : Tid} {out : Bool} (h : JoinMove s x tid out t) (hs : s.Vacant) :
    t.Vacant := by
  unfold Vacant
  rcases h.threads with ht | ⟨i, ht⟩ <;> rw [ht]
  · exact hs
  · exact hs.set i fun _ => rfl

theorem JoinMove.bare {tid : Tid} {out : Bool} (h : JoinMove s x tid out t) (hs : s.Bare) :
    t.Bare := by
  unfold Bare
  rcases h.threads with ht | ⟨i, ht⟩ <;> rw [ht]
  · exact hs
  · exact hs.set i rfl

/-! ## Code segments -/

/-- The calls of a code segment of user code, if the kernel does not map memory at address 0. -/
theorem exec_balances (h : s.Vacant) (x : Ctx) {c : Call} (hnull : c.mapsNull = false) :
    Settles s.held (s.execOps c) (s.exec x c).held ∧ (s.exec x c).Vacant := by
  by_cases hcreate : c.isCreate = true
  · cases c with
    | create outTid attr fn arg env =>
      exact s.threadCreate_balances h outTid attr fn arg (of_decide_eq_false hnull)
    | _ => cases hcreate
  by_cases hjoin : ∃ tid out, c = .join tid out
  · obtain ⟨tid, out, rfl⟩ := hjoin
    exact ⟨s.threadJoin_balances x tid out, (s.threadJoin_move x tid out).vacant h⟩
  have hhoused := s.exec_housed x (Bool.not_eq_true _ ▸ hcreate) fun tid out hc => hjoin ⟨tid, out, hc⟩
  refine ⟨?_, h.of_housed hhoused⟩
  have hops : s.execOps c = [] := by
    cases c with
    | create outTid attr fn arg env => exact absurd rfl hcreate
    | join tid out => exact absurd ⟨tid, out, rfl⟩ hjoin
    | _ => rfl
  rw [hops]
  exact .of_eq (held_of_housed hhoused)

/-- A runtime that is not initialised creates no stack. -/
theorem Bare.exec (h : s.Bare) (hinit : s.initialized = false) (x : Ctx) (c : Call) :
    (s.exec x c).Bare := by
  by_cases hcreate : c.isCreate = true
  · cases c with
    | create outTid attr fn arg env =>
      show (s.threadCreate outTid attr fn arg env).2.Bare
      rw [threadCreate, if_pos hinit]
      exact h
    | _ => cases hcreate
  by_cases hjoin : ∃ tid out, c = .join tid out
  · obtain ⟨tid, out, rfl⟩ := hjoin
    exact (s.threadJoin_move x tid out).bare h
  exact h.of_housed <|
    s.exec_housed x (Bool.not_eq_true _ ▸ hcreate) fun tid out hc => hjoin ⟨tid, out, hc⟩

/-- A continuation other than the loop of a join keeps the stacks. -/
theorem resume_houses (s : Core) (k : Kont) :
    (Housed s.threads (s.resume k).threads ∧ s.resumeOps k = []) ∨
    ∃ (u : Core) (tid : Tid) (out : Bool) (target : Slot), u.threads = s.threads ∧
      s.resume k = u.joinLoop k.ctx tid out target ∧
      s.resumeOps k = u.joinLoopOps tid target := by
  obtain ⟨x, f⟩ := k
  cases f with
  | entry => exact Or.inl ⟨.refl _, rfl⟩
  | yield => exact Or.inl ⟨.refl _, rfl⟩
  | lock m mySlot via => exact Or.inl ⟨lockLoop_housed x m mySlot via _ s, rfl⟩
  | semWait a => exact Or.inl ⟨.refl _, rfl⟩
  | condWait c m => exact Or.inl ⟨mutexLock_housed s x m _, rfl⟩
  | runNext act prev caller =>
    cases caller with
    | yield => exact Or.inl ⟨.refl _, rfl⟩
    | join tid out target =>
      exact Or.inr ⟨{ s with currentTid := prev, hist := .resume act x :: s.hist }, tid, out, target,
        rfl, rfl, rfl⟩

theorem resume_balances (s : Core) (k : Kont) :
    Settles s.held (s.resumeOps k) (s.resume k).held := by
  rcases s.resume_houses k with ⟨hhoused, hops⟩ | ⟨u, tid, out, target, hu, hr, hops⟩
  · rw [hops]
    exact .of_eq (held_of_housed hhoused)
  · have hheld : s.held = u.held := held_of_housed (hu ▸ .refl _)
    rw [hops, hr, hheld]
    exact u.joinLoop_balances k.ctx tid out target

theorem Vacant.resume (h : s.Vacant) (k : Kont) : (s.resume k).Vacant := by
  rcases s.resume_houses k with ⟨hhoused, -⟩ | ⟨u, tid, out, target, hu, hr, -⟩
  · exact h.of_housed hhoused
  · rw [hr]
    exact (u.joinLoop_move k.ctx tid out target).vacant (h.of_housed (hu ▸ .refl _))

theorem Bare.resume (h : s.Bare) (k : Kont) : (s.resume k).Bare := by
  rcases s.resume_houses k with ⟨hhoused, -⟩ | ⟨u, tid, out, target, hu, hr, -⟩
  · exact h.of_housed hhoused
  · rw [hr]
    exact (u.joinLoop_move k.ctx tid out target).bare (h.of_housed (hu ▸ .refl _))

end Core

/-! ## The subsystems -/

namespace Sub
variable {W : World} {u v : Sub}

/-- The trace state as far as it holds resources. -/
def traceShape (u : Sub) : Option (Option Path × Bool) :=
  u.trace.map fun t => (t.file, t.buffer.isSome)

/-- A trace state without a file has no buffer. -/
def TraceOk (u : Sub) : Prop := ∀ b, u.traceShape = some (none, b) → b = false

theorem traceHeld_of_shape (h : v.traceShape = u.traceShape) : traceHeld v.trace = traceHeld u.trace := by
  unfold traceShape at h
  cases hu : u.trace with
  | none =>
    rw [hu] at h
    rw [Option.map_eq_none_iff.mp h]
  | some t =>
    rw [hu] at h
    obtain ⟨t', hv, ht'⟩ := Option.map_eq_some_iff.mp h
    obtain ⟨hfile, hbuffer⟩ := Prod.mk.inj ht'
    rw [hv]
    have hiff : t'.buffer ≠ none ↔ t.buffer ≠ none := by
      rw [← Option.isSome_iff_ne_none, ← Option.isSome_iff_ne_none, hbuffer]
    simp only [traceHeld, hfile, hiff]

theorem traceFlush_shape (W : World) (u : Sub) : (u.traceFlush W).traceShape = u.traceShape := by
  unfold traceFlush
  split
  · rfl
  · rename_i t ht
    split
    · rename_i path buf hfile hbuf
      show some (t.file, true) = u.traceShape
      rw [traceShape, ht, Option.map_some, hbuf]
      rfl
    · rfl

theorem traceAppend_shape {r : List UInt8} (h : u.traceAppend r = some v) :
    v.traceShape = u.traceShape := by
  unfold traceAppend at h
  split at h
  · cases h
  · rename_i t ht
    obtain ⟨buf, hbuf, rfl⟩ := Option.map_eq_some_iff.mp h
    obtain ⟨buf', hbuf', -⟩ := Option.bind_eq_some_iff.mp hbuf
    show some (t.file, true) = u.traceShape
    rw [traceShape, ht, Option.map_some, hbuf']
    rfl

theorem traceRecord_shape (W : World) (u : Sub) (e : Event) :
    (u.traceRecord W e).traceShape = u.traceShape := by
  unfold traceRecord
  split
  · rfl
  · split_ifs
    · rfl
    · rfl
    · rfl
    · dsimp only
      split
      · rename_i v hv
        exact (traceAppend_shape hv).trans rfl
      · have hflush := traceFlush_shape W (u.traceTimestamp W).2
        generalize ((u.traceTimestamp W).2.traceFlush W) = w at hflush
        cases happ : w.traceAppend _ with
        | none => exact hflush
        | some v => exact (traceAppend_shape happ).trans hflush

theorem TraceOk.of_shape (h : u.TraceOk) (hv : v.traceShape = u.traceShape) : v.TraceOk := by
  unfold TraceOk
  rw [hv]
  exact h

/-! ### Recording -/

/-- `gth_trace_cleanup`. -/
theorem traceCleanup_balances (u : Sub) : Settles (traceHeld u.trace) u.traceCleanupOps 0 := by
  unfold traceCleanupOps
  cases htrace : u.trace with
  | none => exact .nil 0
  | some t =>
    have hbuffer : Settles ({.traceBuffer} + {.traceRecords})
        [.give .traceRecords, .give .traceBuffer] (0 : Multiset Resource) :=
      .append (by simpa using (Settles.give Resource.traceRecords).frame_left {.traceBuffer}) (.give _)
    have hparts := (hbuffer.ite (p := t.buffer ≠ none)).frame (if t.file ≠ none then {.traceFile} else 0)
    have hfile := (Settles.give Resource.traceFile).ite (p := t.file ≠ none)
    rw [zero_add] at hparts
    have hboth := ((hparts.append hfile).frame {.traceState})
    rw [zero_add] at hboth
    exact hboth.append (.give _)

/-- `gth_trace_init`. -/
theorem traceInit_balances (h : u.TraceOk) (initialized : Bool) :
    Settles (traceHeld u.trace) (u.traceInitOps W initialized)
        (traceHeld (u.traceInit W initialized).2.trace) ∧
      (u.traceInit W initialized).2.TraceOk := by
  unfold traceInitOps traceInit
  dsimp only [ask]
  split_ifs with hinit htrace hok
  · exact ⟨.nil _, h⟩
  · exact ⟨.nil _, h⟩
  · exact ⟨.nil _, h⟩
  · rw [not_not.mp htrace]
    refine ⟨?_, ?_⟩
    · exact .take _
    · intro b hb
      cases hb
      rfl

/-- `gth_trace_buffer_create`. -/
theorem traceBufferCreate_balances (W : World) (u : Sub) :
    (u.traceBufferCreate W).2.trace = u.trace ∧
    ((u.traceBufferCreate W).1 = none ∧ Settles 0 (u.traceBufferCreateOps W) 0 ∨
      (u.traceBufferCreate W).1 ≠ none ∧
        Settles 0 (u.traceBufferCreateOps W) ({.traceBuffer} + {.traceRecords})) := by
  unfold traceBufferCreate traceBufferCreateOps
  dsimp only [ask]
  split_ifs with ha hb
  · exact ⟨rfl, .inl ⟨rfl, .nil 0⟩⟩
  · exact ⟨rfl, .inl ⟨rfl, .append (.take _) (.give _)⟩⟩
  · refine ⟨rfl, .inr ⟨Option.some_ne_none _, .append (.take _) ?_⟩⟩
    simpa using (Settles.take Resource.traceRecords).frame_left {.traceBuffer}

/-- A failed `gth_trace_start` closes the file and frees the trace state. -/
theorem closed_balances (u : Sub) {t : TraceState} (hbuffer : t.buffer = none) :
    Settles ({.traceFile} + {.traceState}) ([.give .traceFile]
      ++ { u with trace := some { t with file := none } }.traceCleanupOps) 0 := by
  have hcleanup := { u with trace := some { t with file := none } }.traceCleanup_balances
  have hheld : traceHeld (some { t with file := none }) = {.traceState} := by
    simp [traceHeld, hbuffer]
  rw [hheld] at hcleanup
  refine .append ?_ hcleanup
  simpa using (Settles.give Resource.traceFile).frame {.traceState}

theorem traceStartOpened_balances (W : World) (u : Sub) {t : TraceState} (hbuffer : t.buffer = none)
    (path : Path) :
    Settles ({.traceFile} + {.traceState}) (u.traceStartOpenedOps W t path)
        (traceHeld (u.traceStartOpened W t path).2.trace) ∧
      (u.traceStartOpened W t path).2.TraceOk := by
  unfold traceStartOpenedOps traceStartOpened
  dsimp only
  generalize u.traceWriteHeader W path = header
  obtain ⟨status, u⟩ := header
  dsimp only
  by_cases hstatus : status ≠ .ok
  · rw [if_pos hstatus, if_pos hstatus, traceCleanup_trace]
    refine ⟨u.closed_balances hbuffer, ?_⟩
    intro b hb
    rw [traceShape, traceCleanup_trace] at hb
    cases hb
  rw [if_neg hstatus, if_neg hstatus]
  obtain ⟨-, hcreate⟩ := traceBufferCreate_balances W u
  generalize u.traceBufferCreate W = created at hcreate
  obtain ⟨buffer, w⟩ := created
  rcases hcreate with ⟨hnone, hops⟩ | ⟨hsome, hops⟩
  · obtain rfl : buffer = none := hnone
    have hops' := hops.frame ({.traceFile} + {.traceState})
    rw [zero_add] at hops'
    dsimp only
    rw [traceCleanup_trace, List.append_assoc]
    refine ⟨hops'.append (w.closed_balances hbuffer), ?_⟩
    intro b hb
    rw [traceShape, traceCleanup_trace] at hb
    cases hb
  · obtain ⟨buf, rfl⟩ := Option.ne_none_iff_exists'.mp hsome
    dsimp only
    have hshape := traceRecord_shape W { (w.traceTimestamp W).2 with
      trace := some { t with
        file := some path, buffer := some buf, startTime := (w.traceTimestamp W).1, active := true }
      traceEnabled := true } ⟨.runtimeInit, 0, 0, 0⟩
    constructor
    · rw [traceHeld_of_shape hshape]
      have hops' := hops.frame ({.traceFile} + {.traceState})
      rw [zero_add, ← add_assoc] at hops'
      exact hops'
    · intro b hb
      rw [hshape] at hb
      cases hb

/-- `gth_trace_start`. -/
theorem traceStart_balances (h : u.TraceOk) (initialized : Bool) (path : Option Path) :
    Settles (traceHeld u.trace) (u.traceStartOps W initialized path)
        (traceHeld (u.traceStart W initialized path).2.trace) ∧
      (u.traceStart W initialized path).2.TraceOk := by
  have hinit := traceInit_balances (W := W) h initialized
  unfold traceStartOps traceStart
  by_cases hoff : initialized = false
  · rw [if_pos hoff, if_pos hoff]
    exact ⟨.nil _, h⟩
  rw [if_neg hoff, if_neg hoff]
  rcases path with _ | _ | ⟨b, path⟩
  · exact ⟨.nil _, h⟩
  · exact ⟨.nil _, h⟩
  dsimp only
  generalize u.traceInit W initialized = started at hinit
  obtain ⟨status, v⟩ := started
  obtain ⟨hops, hv⟩ := hinit
  dsimp only at hops hv ⊢
  by_cases hstatus : status ≠ .ok ∧ status ≠ .estate
  · rw [if_pos hstatus, if_pos hstatus]
    exact ⟨hops, hv⟩
  rw [if_neg hstatus, if_neg hstatus]
  cases htrace : v.trace with
  | none =>
    dsimp only
    rw [htrace] at hops ⊢
    exact ⟨hops, hv⟩
  | some t =>
    dsimp only
    by_cases hfile : t.file ≠ none
    · rw [if_pos hfile, if_pos hfile]
      exact ⟨hops, hv⟩
    rw [if_neg hfile, if_neg hfile]
    -- the trace state has neither file nor buffer
    have hbuffer : t.buffer = none := by
      have hshape : v.traceShape = some (none, t.buffer.isSome) := by
        rw [traceShape, htrace, Option.map_some, not_not.mp hfile]
      exact Option.not_isSome_iff_eq_none.mp (Bool.not_eq_true _ ▸ hv _ hshape)
    have hheld : traceHeld v.trace = {.traceState} := by
      simp [traceHeld, htrace, hbuffer, not_not.mp hfile]
    have hasked : (v.ask W).2.trace = v.trace := rfl
    generalize v.ask W = asked at hasked
    obtain ⟨a, w⟩ := asked
    dsimp only at hasked ⊢
    by_cases hopen : a.ok = false
    · rw [if_pos hopen, if_pos hopen, traceCleanup_trace]
      rw [← hasked] at hops
      refine ⟨hops.append w.traceCleanup_balances, ?_⟩
      intro b hb
      rw [traceShape, traceCleanup_trace] at hb
      cases hb
    · rw [if_neg hopen, if_neg hopen]
      rw [hheld] at hops
      obtain ⟨hopened, hok⟩ := traceStartOpened_balances W { w with
        files := Function.update w.files (b :: path) (some []) } hbuffer (b :: path)
      refine ⟨(hops.append ?_).append hopened, hok⟩
      simpa using (Settles.take Resource.traceFile).frame {.traceState}

/-- `gth_trace_stop`. -/
theorem traceStop_balances (h : u.TraceOk) (initialized : Bool) :
    Settles (traceHeld u.trace) (u.traceStopOps W initialized)
        (traceHeld (u.traceStop W initialized).2.trace) ∧
      (u.traceStop W initialized).2.TraceOk := by
  unfold traceStopOps traceStop
  by_cases hoff : initialized = false
  · rw [if_pos hoff, if_pos hoff]
    exact ⟨.nil _, h⟩
  rw [if_neg hoff, if_neg hoff]
  cases htrace : u.trace with
  | none =>
    dsimp only
    rw [htrace]
    exact ⟨.nil _, h⟩
  | some t =>
    dsimp only
    by_cases hactive : t.active = false
    · rw [if_pos hactive, if_pos hactive]
      dsimp only
      rw [htrace]
      exact ⟨.nil _, h⟩
    rw [if_neg hactive, if_neg hactive]
    dsimp only
    have hshape : ((u.traceRecord W ⟨.runtimeShutdown, 0, 0, 0⟩).traceFlush W).traceShape
        = u.traceShape := (traceFlush_shape W _).trans (traceRecord_shape W u _)
    have hheld := traceHeld_of_shape hshape
    generalize (u.traceRecord W ⟨.runtimeShutdown, 0, 0, 0⟩).traceFlush W = v at hshape hheld
    rw [traceCleanup_trace, ← htrace, ← hheld]
    constructor
    · refine .append ?_ (traceCleanup_balances _)
      cases hv : v.trace with
      | none => exact .nil 0
      | some t' =>
        have hclose := (Settles.give Resource.traceFile).ite (p := t'.file ≠ none)
        have hall := (hclose.frame_left (if t'.buffer ≠ none then {.traceBuffer} + {.traceRecords}
          else 0)).frame {.traceState}
        exact hall
    · intro b hb
      rw [traceShape, traceCleanup_trace] at hb
      cases hb

/-! ### Replay and fuzzing -/

/-- `gth_replay_read_file`: the file is closed; the contents are kept, or nothing is. -/
theorem replayReadFile_balances (W : World) (u : Sub) (path : Path) :
    (u.replayReadFile W path).1 = none ∧ Settles 0 (u.replayReadFileOps W path) 0 ∨
    (u.replayReadFile W path).1 ≠ none ∧ Settles 0 (u.replayReadFileOps W path) {.replayData} := by
  have hread : Settles 0 [.take .replayFile, .take .replayData, .give .replayFile]
      {Resource.replayData} := by
    have htake := (Settles.take Resource.replayData).frame {.replayFile}
    have hgive := (Settles.give Resource.replayFile).frame_left {.replayData}
    rw [zero_add] at htake
    rw [add_zero] at hgive
    exact ((Settles.take Resource.replayFile).append htake).append hgive
  have hclose : Settles 0 [.take Resource.replayFile, .give .replayFile] 0 :=
    .append (.take _) (.give _)
  unfold replayReadFileOps replayReadFile
  dsimp only [ask]
  cases u.files path with
  | none => exact .inl ⟨rfl, .nil 0⟩
  | some contents =>
    dsimp only
    split_ifs
    · exact .inl ⟨rfl, .nil 0⟩
    · exact .inl ⟨rfl, hclose⟩
    · exact .inl ⟨rfl, hclose⟩
    · exact .inl ⟨rfl, hclose⟩
    · exact .inl ⟨rfl, hclose⟩
    · exact .inl ⟨rfl, hread.append (.give _)⟩
    · exact .inr ⟨Option.some_ne_none _, hread⟩

/-- `gth_replay_init`. -/
theorem replayInit_balances (W : World) (u : Sub) (initialized : Bool) (path : Option Path) :
    Settles (replayHeld u.replay) (u.replayInitOps W initialized path)
      (replayHeld (u.replayInit W initialized path).2.replay) := by
  unfold replayInitOps replayInit
  by_cases hoff : initialized = false
  · rw [if_pos hoff, if_pos hoff]
    exact .nil _
  rw [if_neg hoff, if_neg hoff]
  rcases path with _ | _ | ⟨b, path⟩
  · exact .nil _
  · exact .nil _
  dsimp only
  by_cases hreplay : u.replay ≠ none
  · rw [if_pos hreplay, if_pos hreplay]
    exact .nil _
  rw [if_neg hreplay, if_neg hreplay, not_not.mp hreplay]
  have hframe : (u.replayReadFile W (b :: path)).2.replay = none := by
    rw [show (u.replayReadFile W (b :: path)).2.replay = u.replay from
      congrArg (fun c => c.1.2.1) (frame_replayReadFile W u (b :: path)), not_not.mp hreplay]
  have hread := replayReadFile_balances W u (b :: path)
  generalize u.replayReadFile W (b :: path) = r at hread hframe
  obtain ⟨_ | data, v⟩ := r
  · rcases hread with ⟨-, hops⟩ | ⟨hsome, -⟩
    · dsimp only at hframe ⊢
      rw [hframe]
      exact hops
    · exact absurd rfl hsome
  rcases hread with ⟨hnone, -⟩ | ⟨-, hops⟩
  · cases hnone
  dsimp only at hframe ⊢
  by_cases hcount : replayCountRecords data = 0
  · rw [if_pos hcount, if_pos hcount]
    dsimp only
    rw [hframe]
    exact hops.append (.give _)
  rw [if_neg hcount, if_neg hcount]
  have hasked : (v.ask W).2.replay = none := hframe
  generalize v.ask W = asked at hasked
  obtain ⟨a, w⟩ := asked
  dsimp only at hasked ⊢
  by_cases hok : a.ok = false
  · rw [if_pos hok, if_pos hok]
    dsimp only
    rw [hasked]
    exact hops.append (.give _)
  · rw [if_neg hok, if_neg hok]
    have htake := (Settles.take Resource.replayState).frame_left {.replayData}
    rw [add_zero] at htake
    exact hops.append htake

/-- `gth_replay_cleanup`. -/
theorem replayCleanup_balances (u : Sub) : Settles (replayHeld u.replay) u.replayCleanupOps 0 := by
  unfold replayCleanupOps
  cases u.replay with
  | none => exact .nil 0
  | some r =>
    have hdata := (Settles.give Resource.replayData).frame {.replayState}
    rw [zero_add] at hdata
    exact hdata.append (.give _)

/-- `gth_fuzz_cleanup`. -/
theorem fuzzCleanup_balances (u : Sub) : Settles (fuzzHeld u.fuzz) u.fuzzCleanupOps 0 := by
  unfold fuzzCleanupOps
  cases u.fuzz with
  | none => exact .nil 0
  | some f => exact .give _

/-- `gth_fuzz_init`. -/
theorem fuzzInit_balances (W : World) (u : Sub) (initialized : Bool) (seed : BitVec 64) :
    Settles (fuzzHeld u.fuzz) (u.fuzzInitOps W initialized)
      (fuzzHeld (u.fuzzInit W initialized seed).2.fuzz) := by
  unfold fuzzInitOps fuzzInit
  dsimp only [ask]
  split_ifs with hoff hfuzz hok
  · exact .nil _
  · exact .nil _
  · exact .nil _
  · rw [not_not.mp hfuzz]
    exact .take _

theorem fuzzInit_others (W : World) (u : Sub) (initialized : Bool) (seed : BitVec 64) :
    (u.fuzzInit W initialized seed).2.trace = u.trace ∧
      (u.fuzzInit W initialized seed).2.replay = u.replay := by
  unfold fuzzInit
  dsimp only [ask]
  split_ifs <;> exact ⟨rfl, rfl⟩

/-! ### Calls of the mode interface -/

theorem settles_trace {ops : Ops} (hframe : v.frame = u.frame)
    (h : Settles (traceHeld u.trace) ops (traceHeld v.trace)) : Settles u.held ops v.held := by
  have hreplay : v.replay = u.replay := congrArg (fun c => c.1.2.1) hframe
  have hfuzz : v.fuzz = u.fuzz := congrArg (fun c => c.1.2.2) hframe
  unfold held
  rw [hreplay, hfuzz]
  exact (h.frame _).frame _

theorem settles_replay {ops : Ops} (htrace : v.trace = u.trace) (hfuzz : v.fuzz = u.fuzz)
    (h : Settles (replayHeld u.replay) ops (replayHeld v.replay)) : Settles u.held ops v.held := by
  unfold held
  rw [htrace, hfuzz]
  exact (h.frame_left _).frame _

theorem settles_fuzz {ops : Ops} (htrace : v.trace = u.trace) (hreplay : v.replay = u.replay)
    (h : Settles (fuzzHeld u.fuzz) ops (fuzzHeld v.fuzz)) : Settles u.held ops v.held := by
  unfold held
  rw [htrace, hreplay]
  exact h.frame_left _

section
variable (c : Prop) [Decidable c]

theorem traceCleanup_if (h : u.TraceOk) :
    Settles u.held (if c then u.traceCleanupOps else []) (if c then u.traceCleanup W else u).held ∧
      (if c then u.traceCleanup W else u).TraceOk := by
  split_ifs
  · refine ⟨settles_trace (frame_traceCleanup W u) ?_, ?_⟩
    · rw [traceCleanup_trace]
      exact u.traceCleanup_balances
    · intro b hb
      rw [traceShape, traceCleanup_trace] at hb
      cases hb
  · exact ⟨.nil _, h⟩

theorem replayCleanup_if (h : u.TraceOk) :
    Settles u.held (if c then u.replayCleanupOps else []) (if c then u.replayCleanup else u).held ∧
      (if c then u.replayCleanup else u).TraceOk := by
  split_ifs
  · exact ⟨settles_replay rfl rfl u.replayCleanup_balances, h⟩
  · exact ⟨.nil _, h⟩

theorem fuzzCleanup_if (h : u.TraceOk) :
    Settles u.held (if c then u.fuzzCleanupOps else []) (if c then u.fuzzCleanup else u).held ∧
      (if c then u.fuzzCleanup else u).TraceOk := by
  split_ifs
  · exact ⟨settles_fuzz rfl rfl u.fuzzCleanup_balances, h⟩
  · exact ⟨.nil _, h⟩

end

/-- The cleanups of `gth_scheduler_set_mode`. -/
theorem leaveMode_balances (h : u.TraceOk) :
    Settles u.held (u.leaveModeOps W) (u.leaveMode W).held ∧ (u.leaveMode W).TraceOk := by
  obtain ⟨htrace, hv⟩ := traceCleanup_if (W := W) (u.mode = .record ∧ u.trace ≠ none) h
  unfold leaveModeOps leaveMode
  dsimp only
  generalize (if u.mode = .record ∧ u.trace ≠ none then u.traceCleanup W else u) = v at htrace hv
  obtain ⟨hreplay, hw⟩ := replayCleanup_if (v.mode = .replay ∧ v.replay ≠ none) hv
  generalize (if v.mode = .replay ∧ v.replay ≠ none then v.replayCleanup else v) = w at hreplay hw
  obtain ⟨hfuzz, hok⟩ := fuzzCleanup_if (w.mode = .fuzz ∧ w.fuzz ≠ none) hw
  exact ⟨(htrace.append hreplay).append hfuzz, hok⟩

/-- `gth_scheduler_set_mode`. -/
theorem schedulerSetMode_balances (h : u.TraceOk) (initialized : Bool) (config : Config) (mode : Mode) :
    Settles u.held (u.schedulerSetModeOps W initialized mode)
        (u.schedulerSetMode W initialized config mode).2.held ∧
      (u.schedulerSetMode W initialized config mode).2.TraceOk := by
  cases initialized with
  | false => exact ⟨.nil _, h⟩
  | true =>
    obtain ⟨hleave, hok⟩ := leaveMode_balances (W := W) h
    unfold schedulerSetModeOps
    rw [schedulerSetMode_eq, if_neg (by decide)]
    dsimp only
    generalize u.leaveMode W = w at hleave hok
    cases mode with
    | normal => exact ⟨hleave, hok⟩
    | replay => exact ⟨hleave, hok⟩
    | record =>
      obtain ⟨hinit, hok'⟩ := traceInit_balances (W := W) (u := { w with mode := .record }) hok true
      have hsettles := hleave.append (settles_trace (u := { w with mode := .record })
        (frame_traceInit W { w with mode := .record } true) hinit)
      dsimp only
      split
      · exact ⟨hsettles, hok'⟩
      · exact ⟨hsettles, hok'⟩
    | fuzz =>
      dsimp only
      generalize (if config.replaySeed.setWidth 64 = 0 then 123456789#64 else _) = seed
      obtain ⟨htrace, hreplay⟩ := fuzzInit_others W { w with mode := .fuzz } true seed
      have hsettles := hleave.append
        (settles_fuzz htrace hreplay (fuzzInit_balances W { w with mode := .fuzz } true seed))
      have hok' : ({ w with mode := .fuzz }.fuzzInit W true seed).2.TraceOk :=
        hok.of_shape (by rw [traceShape, htrace]; rfl)
      split
      · exact ⟨hsettles, hok'⟩
      · exact ⟨hsettles, hok'⟩

end Sub

namespace State
variable {W : World} {s : State}

/-- The calls of the trace, replay and mode interface. -/
theorem subExec_balances (h : s.sub.TraceOk) (c : SubCall) :
    Settles s.sub.held (s.subExecOps W c) (s.subExec W c).2.held ∧ (s.subExec W c).2.TraceOk := by
  cases c with
  | setMode mode => exact Sub.schedulerSetMode_balances h _ _ mode
  | traceStart path =>
    obtain ⟨hops, hok⟩ := Sub.traceStart_balances (W := W) h s.core.initialized path
    exact ⟨Sub.settles_trace (Sub.frame_traceStart W s.sub _ path) hops, hok⟩
  | traceStop =>
    obtain ⟨hops, hok⟩ := Sub.traceStop_balances (W := W) h s.core.initialized
    exact ⟨Sub.settles_trace (Sub.frame_traceStop W s.sub _) hops, hok⟩
  | traceFlush =>
    have hshape := Sub.traceFlush_shape W s.sub
    refine ⟨Sub.settles_trace (Sub.frame_traceFlush W s.sub) ?_, h.of_shape hshape⟩
    exact .of_eq (Sub.traceHeld_of_shape hshape).symm
  | replayFrom path =>
    have hops := Sub.replayInit_balances W s.sub s.core.initialized path
    have htrace := (Sub.replayInit_frame W s.sub s.core.initialized path).1
    have hfuzz : (s.sub.replayInit W s.core.initialized path).2.fuzz = s.sub.fuzz := by
      rcases Sub.replayInit_cases W s.sub s.core.initialized path with
        ⟨-, hframe⟩ | ⟨-, -, -, -, hfuzz, -⟩
      · exact congrArg (fun c => c.1.2.2) hframe
      · exact hfuzz
    have hsettles := Sub.settles_replay htrace hfuzz hops
    have hok : (s.sub.replayInit W s.core.initialized path).2.TraceOk :=
      h.of_shape (by rw [Sub.traceShape, htrace]; rfl)
    show Settles s.sub.held (s.sub.replayInitOps W s.core.initialized path)
      (s.sub.replayFrom W s.core.initialized path).2.held ∧
        (s.sub.replayFrom W s.core.initialized path).2.TraceOk
    unfold Sub.replayFrom
    generalize s.sub.replayInit W s.core.initialized path = r at hsettles hok
    obtain ⟨status, v⟩ := r
    cases status <;> exact ⟨hsettles, hok⟩
  | fuzzSetRate rate =>
    show Settles s.sub.held [] (s.sub.fuzzSetRate s.core.initialized rate).2.held ∧
      (s.sub.fuzzSetRate s.core.initialized rate).2.TraceOk
    unfold Sub.fuzzSetRate
    split
    · exact ⟨.nil _, h⟩
    · cases hfuzz : s.sub.fuzz with
      | none => exact ⟨.nil _, h⟩
      | some f =>
        dsimp only
        split
        · exact ⟨.nil _, h⟩
        · refine ⟨Sub.settles_fuzz rfl rfl ?_, h⟩
          rw [hfuzz]
          exact .nil _

/-- Instrumentation calls write to the trace. -/
theorem settle_balances (h : s.sub.TraceOk) (core : Core) :
    Settles s.sub.held [] (s.settle W core).sub.held ∧ (s.settle W core).sub.TraceOk := by
  have hshape : (s.settle W core).sub.traceShape = s.sub.traceShape := by
    show (core.events.foldl (fun u e => u.traceRecord W e) s.sub).traceShape = _
    generalize core.events = es
    generalize s.sub = u
    induction es generalizing u with
    | nil => rfl
    | cons e es ih => exact (ih _).trans (Sub.traceRecord_shape W u e)
  refine ⟨Sub.settles_trace (s.settle_frame core) ?_, h.of_shape hshape⟩
  exact .of_eq (Sub.traceHeld_of_shape hshape).symm

/-- A pick moves the cursor of the replay or the generator of the fuzzer. -/
theorem pick_balances {u v : Sub} (h : u.TraceOk) {policy : Policy}
    {threads : Slot → ThreadRecord} {pick : Option Slot}
    (hpick : u.pickReadyThreadMode W policy threads = some (pick, v)) :
    Settles u.held [] v.held ∧ v.TraceOk := by
  have hnormal : (u.pickReadyThread policy threads).2.trace = u.trace ∧
      (u.pickReadyThread policy threads).2.replay = u.replay ∧
      (u.pickReadyThread policy threads).2.fuzz = u.fuzz := by
    rw [pickReadyThread_sub]
    exact ⟨rfl, rfl, rfl⟩
  obtain ⟨htrace, hreplay, hfuzz⟩ := hnormal
  have hok : ∀ w : Sub, w.trace = u.trace → w.TraceOk := fun w hw =>
    h.of_shape (by rw [Sub.traceShape, hw]; rfl)
  rcases pickReadyThreadMode_cases hpick with ⟨r, -, hr, -, rfl⟩ | ⟨f, f', -, hf, -, rfl⟩ |
    ⟨-, -, heq⟩
  · refine ⟨Sub.settles_replay rfl rfl ?_, hok _ rfl⟩
    rw [hr]
    exact .nil _
  · refine ⟨Sub.settles_fuzz htrace hreplay ?_, hok _ htrace⟩
    rw [hf]
    exact .nil _
  · obtain rfl : v = (u.pickReadyThread policy threads).2 := congrArg Prod.snd heq
    refine ⟨Sub.settles_fuzz htrace hreplay ?_, hok _ htrace⟩
    rw [hfuzz]
    exact .nil _

end State
end Gth

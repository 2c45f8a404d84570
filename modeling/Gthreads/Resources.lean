/-
  What the runtime obtains from the operating system and the C library, and gives back: stack
  mappings (`src/context/stack.c`), heap blocks and open files (`src/trace/`).

  For each function that calls `mmap`, `munmap`, `malloc`, `free`, `fopen` or `fclose`, or that calls
  such a function, `fOps` is the list of these calls in the order in which `f` makes them.  Each
  `fOps` has the branches of `f`.  A pointer that the runtime keeps is named by the field that keeps
  it; a mapping has its address and its size.
-/
import Gthreads.Lib.Ledger
import Gthreads.Modes

namespace Gth

inductive Resource where
  /-- `size` bytes mapped at `base`. -/
  | mapping (base size : BitVec 64)
  /-- `state->trace` and `state->trace->file`. -/
  | traceState
  | traceFile
  /-- `state->trace->buffer` and its `buffer`. -/
  | traceBuffer
  | traceRecords
  /-- The `fp` of `gth_replay_read_file`, and its `data`, later `state->replay->events`. -/
  | replayFile
  | replayData
  /-- `state->replay` and `state->fuzz`. -/
  | replayState
  | fuzzState
  deriving DecidableEq

abbrev Ops := List (Ledger.Op Resource)

/-! ## Stacks -/

/-- `gth_stack_allocate`: a mapping that cannot be protected is given back. -/
def stackAllocateOps (pageSize : BitVec 64) (env : MapEnv) (stackSizeBytes : BitVec 64) : Ops :=
  if pageSize = 0 ∨ isPowerOfTwo pageSize = false then []
  else if stackSizeBytes < 16 * 1024 ∨ maxStackSize < stackSizeBytes then []
  else
    let alignedStackSize := alignUp stackSizeBytes pageSize
    if alignedStackSize < stackSizeBytes then []
    else
      let totalSize := alignedStackSize + pageSize
      if totalSize < alignedStackSize then []
      else match env.mmap with
        | none => []
        | some memory =>
          if env.mprotectOk = false then
            [.take (.mapping memory totalSize), .give (.mapping memory totalSize)]
          else [.take (.mapping memory totalSize)]

/-- `gth_stack_free`. -/
def stackFreeOps (stack : StackAllocation) : Ops :=
  if stack.memory ≠ 0 ∧ stack.totalSize ≠ 0 then [.give (.mapping stack.memory stack.totalSize)]
  else []

namespace Core

/-- `gth_thread_create`. -/
def threadCreateOps (s : Core) (outTid : Bool) (fn : Nat) (env : MapEnv) : Ops :=
  if s.initialized = false then []
  else if outTid = false ∨ fn = 0 then []
  else match allocThreadSlot s.threads with
    | none => []
    | some _ => stackAllocateOps s.pageSize env s.config.stackSizeBytes

/-- `gth_thread_release_slot`, at the end of `gth_thread_join`. -/
def joinFinishOps (s : Core) (i : Slot) : Ops := stackFreeOps (s.threads i).stack

def joinLoopOps (s : Core) (tid : Tid) (target : Slot) : Ops :=
  if threadIsTerminal (s.threads target).state then
    match findThread s.threads tid with
    | none => []
    | some i => s.joinFinishOps i
  else []

/-- `gth_thread_join`, up to its first `gth_scheduler_run_next`. -/
def threadJoinOps (s : Core) (tid : Tid) : Ops :=
  if s.initialized = false then []
  else if tid = 0 then []
  else if tid = s.currentTid then []
  else match findThread s.threads tid with
    | none => []
    | some i =>
      if threadIsTerminal (s.threads i).state then s.joinFinishOps i else s.joinLoopOps tid i

/-- The API calls: only threads have stacks. -/
def execOps (s : Core) : Call → Ops
  | .create outTid _ fn _ env => s.threadCreateOps outTid fn env
  | .join tid _ => s.threadJoinOps tid
  | _ => []

def resumeOps (s : Core) (k : Kont) : Ops :=
  match k.frame with
  | .runNext _ _ (.join tid _ target) => s.joinLoopOps tid target
  | _ => []

end Core

/-! ## The trace, replay and fuzz subsystems -/

namespace Sub
variable (W : World)

/-- `gth_trace_init`. -/
def traceInitOps (u : Sub) (initialized : Bool) : Ops :=
  if initialized = false then []
  else if u.trace ≠ none then []
  else
    let (a, _) := u.ask W
    if a.ok = false then [] else [.take .traceState]

/-- `gth_trace_cleanup`, with `gth_trace_buffer_destroy`. -/
def traceCleanupOps (u : Sub) : Ops :=
  match u.trace with
  | none => []
  | some t =>
    (if t.buffer ≠ none then [.give .traceRecords, .give .traceBuffer] else [])
      ++ (if t.file ≠ none then [.give .traceFile] else []) ++ [.give .traceState]

/-- `gth_trace_buffer_create`. -/
def traceBufferCreateOps (u : Sub) : Ops :=
  let (a, u) := u.ask W
  if a.ok = false then []
  else
    let (b, _) := u.ask W
    if b.ok = false then [.take .traceBuffer, .give .traceBuffer]
    else [.take .traceBuffer, .take .traceRecords]

/-- The part of `gth_trace_start` after the file has been opened. -/
def traceStartOpenedOps (u : Sub) (t : TraceState) (path : Path) : Ops :=
  let (status, u) := u.traceWriteHeader W path
  if status ≠ .ok then
    [.give .traceFile] ++ { u with trace := some { t with file := none } }.traceCleanupOps
  else
    let ops := u.traceBufferCreateOps W
    let (buffer, u) := u.traceBufferCreate W
    match buffer with
    | none => ops ++ [.give .traceFile]
        ++ { u with trace := some { t with file := none } }.traceCleanupOps
    | some _ => ops

/-- `gth_trace_start`. -/
def traceStartOps (u : Sub) (initialized : Bool) (tracePath : Option Path) : Ops :=
  if initialized = false then []
  else match tracePath with
    | none => []
    | some [] => []
    | some path =>
      let ops := u.traceInitOps W initialized
      let (status, u) := u.traceInit W initialized
      if status ≠ .ok ∧ status ≠ .estate then ops
      else match u.trace with
        | none => ops
        | some t =>
          if t.file ≠ none then ops
          else
            let (a, u) := u.ask W
            if a.ok = false then ops ++ u.traceCleanupOps
            else ops ++ [.take .traceFile] ++ { u with
              files := Function.update u.files path (some []) }.traceStartOpenedOps W t path

/-- `gth_trace_stop`. -/
def traceStopOps (u : Sub) (initialized : Bool) : Ops :=
  if initialized = false then []
  else match u.trace with
    | none => []
    | some t =>
      if t.active = false then []
      else
        let u := u.traceRecord W ⟨.runtimeShutdown, 0, 0, 0⟩
        let u := u.traceFlush W
        (if u.trace.bind TraceState.file ≠ none then [.give .traceFile] else [])
          ++ { u with
            trace := u.trace.map fun t : TraceState => { t with file := none, active := false }
            traceEnabled := false }.traceCleanupOps

/-- `gth_replay_read_file`: the file is closed in every case. -/
def replayReadFileOps (u : Sub) (path : Path) : Ops :=
  let (opened, u) := u.ask W
  match u.files path with
  | none => []
  | some contents =>
    if opened.ok = false then []
    else
      let (sought, u) := u.ask W
      if sought.ok = false then [.take .replayFile, .give .replayFile]
      else if contents.length < traceHeaderSize then [.take .replayFile, .give .replayFile]
      else if replayMaxFileSize < contents.length then [.take .replayFile, .give .replayFile]
      else
        let (allocated, u) := u.ask W
        if allocated.ok = false then [.take .replayFile, .give .replayFile]
        else
          let (read, _) := u.ask W
          if read.transferred contents.length ≠ contents.length then
            [.take .replayFile, .take .replayData, .give .replayFile, .give .replayData]
          else [.take .replayFile, .take .replayData, .give .replayFile]

/-- `gth_replay_init`, the only call of `gth_replay_from` that obtains anything. -/
def replayInitOps (u : Sub) (initialized : Bool) (tracePath : Option Path) : Ops :=
  if initialized = false then []
  else match tracePath with
    | none => []
    | some [] => []
    | some path =>
      if u.replay ≠ none then []
      else
        let ops := u.replayReadFileOps W path
        match u.replayReadFile W path with
        | (none, _) => ops
        | (some data, u) =>
          if replayCountRecords data = 0 then ops ++ [.give .replayData]
          else
            let (allocated, _) := u.ask W
            if allocated.ok = false then ops ++ [.give .replayData]
            else ops ++ [.take .replayState]

/-- `gth_replay_cleanup`. -/
def replayCleanupOps (u : Sub) : Ops :=
  match u.replay with
  | none => []
  | some _ => [.give .replayData, .give .replayState]

/-- `gth_fuzz_init`. -/
def fuzzInitOps (u : Sub) (initialized : Bool) : Ops :=
  if initialized = false then []
  else if u.fuzz ≠ none then []
  else
    let (a, _) := u.ask W
    if a.ok = false then [] else [.take .fuzzState]

/-- `gth_fuzz_cleanup`. -/
def fuzzCleanupOps (u : Sub) : Ops :=
  match u.fuzz with
  | none => []
  | some _ => [.give .fuzzState]

/-- The cleanups at the start of `gth_scheduler_set_mode`. -/
def leaveModeOps (u : Sub) : Ops :=
  let ops := if u.mode = .record ∧ u.trace ≠ none then u.traceCleanupOps else []
  let u := if u.mode = .record ∧ u.trace ≠ none then u.traceCleanup W else u
  let ops := ops ++ if u.mode = .replay ∧ u.replay ≠ none then u.replayCleanupOps else []
  let u := if u.mode = .replay ∧ u.replay ≠ none then u.replayCleanup else u
  ops ++ if u.mode = .fuzz ∧ u.fuzz ≠ none then u.fuzzCleanupOps else []

/-- `gth_scheduler_set_mode`. -/
def schedulerSetModeOps (u : Sub) (initialized : Bool) (mode : Mode) : Ops :=
  if initialized = false then []
  else
    let ops := u.leaveModeOps W
    let u := { u.leaveMode W with mode := mode }
    match mode with
    | .record => ops ++ u.traceInitOps W initialized
    | .fuzz => ops ++ u.fuzzInitOps W initialized
    | _ => ops

end Sub

namespace State
variable (W : World)

def subExecOps (s : State) : SubCall → Ops
  | .setMode mode => s.sub.schedulerSetModeOps W s.core.initialized mode
  | .traceStart path => s.sub.traceStartOps W s.core.initialized path
  | .traceStop => s.sub.traceStopOps W s.core.initialized
  | .replayFrom path => s.sub.replayInitOps W s.core.initialized path
  | .traceFlush | .fuzzSetRate _ => []

/-- One step of the program. -/
def stepOps (s : State) : Label → Ops
  | .call _ c => s.fresh.execOps c
  | .sub _ c => s.subExecOps W c
  | .tau => match s.core.cpu with
    | .swap (some k) => s.fresh.resumeOps k
    | _ => []

/-- `gth_runtime_shutdown`. -/
def shutdownOps (s : State) : Ops :=
  if s.core.initialized = false then []
  else
    let ops := if s.sub.trace ≠ none then s.sub.traceCleanupOps else []
    let sub := if s.sub.trace ≠ none then s.sub.traceCleanup W else s.sub
    let ops := ops ++ if sub.replay ≠ none then sub.replayCleanupOps else []
    let sub := if sub.replay ≠ none then sub.replayCleanup else sub
    let ops := ops ++ if sub.fuzz ≠ none then sub.fuzzCleanupOps else []
    ops ++ (List.finRange 128).flatMap fun i => stackFreeOps (s.core.threads i).stack

end State

/-! ## What a state holds -/

/-- The mapping of a stack. -/
def StackAllocation.held (stack : StackAllocation) : Multiset Resource :=
  if stack.memory ≠ 0 ∧ stack.totalSize ≠ 0 then {.mapping stack.memory stack.totalSize} else 0

def Core.held (s : Core) : Multiset Resource := ∑ i, (s.threads i).stack.held

namespace Sub

def traceHeld (trace : Option TraceState) : Multiset Resource :=
  match trace with
  | none => 0
  | some t =>
    (if t.buffer ≠ none then {.traceBuffer} + {.traceRecords} else 0)
      + (if t.file ≠ none then {.traceFile} else 0) + {.traceState}

def replayHeld (replay : Option ReplayState) : Multiset Resource :=
  match replay with
  | none => 0
  | some _ => {.replayData} + {.replayState}

def fuzzHeld (fuzz : Option FuzzState) : Multiset Resource :=
  match fuzz with
  | none => 0
  | some _ => {.fuzzState}

def held (u : Sub) : Multiset Resource :=
  traceHeld u.trace + replayHeld u.replay + fuzzHeld u.fuzz

end Sub

/-- All that can be reached from the runtime state. -/
def State.held (s : State) : Multiset Resource := s.core.held + s.sub.held

end Gth

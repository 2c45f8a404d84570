/-
  The whole program as a labelled step function.

  A run is a list of labels from the state `gth_runtime_init` leaves:

  * `call x c` — user code on stack `x` makes the API call `c`;
  * `sub x c`  — user code makes a call of the trace, replay and mode interface;
  * `tau`      — the runtime goes on: the scheduler picks and switches, or a continuation that
                 `gth_ctx_swap` loaded runs.

  Labels carry the choices of the user program, the `World` those of the C library; everything
  else is determined.  After each code segment the instrumentation calls it made are recorded in
  order (`settle`): the trace functions read and write nothing that `Core` functions use, so
  recording them at the end of the segment is the same as recording them on the way.
-/
import Gthreads.Scheduler
import Gthreads.Lib.Exec

namespace Gth

/-- The calls of the trace, replay, fuzz and mode interface that change state. -/
inductive SubCall where
  | setMode (mode : Mode)
  | traceStart (path : Option Path)
  | traceStop
  | traceFlush
  | replayFrom (path : Option Path)
  | fuzzSetRate (rate : Nat)

inductive Label where
  | call (x : Ctx) (c : Call)
  | sub (x : Ctx) (c : SubCall)
  | tau

/-- The state of the process.  `emitted` is ghost: all instrumentation calls so far. -/
structure State where
  core : Core
  sub : Sub := {}
  emitted : List Event := []

/-! ## Start -/

/-- `gth_config_is_valid`; the policy field holds one of the two policies by its type. -/
def configIsValid (config : Config) : Bool :=
  decide (16 * 1024 ≤ config.stackSizeBytes.toNat) && decide (config.quantumUs ≠ 0)

/-- `gth_runtime_init`. -/
def runtimeInit (s : State) (config : Option Config) : Status × State :=
  match config with
  | none => (.einval, s)
  | some config =>
    if configIsValid config = false then (.einval, s)
    else if s.core.initialized then (.estate, s)
    else
      -- `memset` of the runtime state; user memory, files and the page size are not part of it
      let core : Core :=
        { config := config, pageSize := s.core.pageSize, initialized := true, nextTid := 1,
          mutexes := s.core.mutexes, sems := s.core.sems, conds := s.core.conds }
      let sub : Sub := { lastRrSlot := 127, files := s.sub.files, calls := s.sub.calls }
      (.ok, { core := core, sub := sub })

/-- `gth_runtime_shutdown`.  Contexts and stacks of all slots are freed before the `memset`. -/
def runtimeShutdown (W : World) (s : State) : Status × State :=
  if s.core.initialized = false then (.estate, s)
  else
    let sub := if s.sub.trace ≠ none then s.sub.traceCleanup W else s.sub
    let sub := if sub.replay ≠ none then sub.replayCleanup else sub
    let sub := if sub.fuzz ≠ none then sub.fuzzCleanup else sub
    let core : Core :=
      { config := ⟨0, .rr, 0, 0⟩, pageSize := s.core.pageSize, mutexes := s.core.mutexes,
        sems := s.core.sems, conds := s.core.conds }
    (.ok, { core := core, sub := { files := sub.files, calls := sub.calls } })

/-- A configuration `gth_runtime_init` accepts. -/
abbrev ValidConfig := { config : Config // configIsValid config = true }

/-- A process that has not called the runtime yet: all static memory is zero. -/
def State.loaded (config : Config) (pageSize : BitVec 64) (files : Path → Option (List UInt8)) :
    State :=
  { core := { config := config, pageSize := pageSize }, sub := { files := files } }

/-- The state in which runs start. -/
def State.start (config : ValidConfig) (pageSize : BitVec 64)
    (files : Path → Option (List UInt8)) : State :=
  (runtimeInit (State.loaded config.1 pageSize files) (some config.1)).2

/-! ## Steps -/

namespace State
variable (W : World)

/-- The end of a code segment that left the core state `core`: its instrumentation calls. -/
def settle (s : State) (core : Core) : State :=
  { core := core
    sub := core.events.foldl (fun u e => u.traceRecord W e) s.sub
    emitted := s.emitted ++ core.events }

/-- The core state at the start of a code segment. -/
def fresh (s : State) : Core := { s.core with events := [] }

/-- The calls of the trace, replay and mode interface. -/
def subExec (s : State) (c : SubCall) : Status × Sub :=
  match c with
  | .setMode mode => s.sub.schedulerSetMode W s.core.initialized s.core.config mode
  | .traceStart path => s.sub.traceStart W s.core.initialized path
  | .traceStop => s.sub.traceStop W s.core.initialized
  | .traceFlush => (.ok, s.sub.traceFlush W)
  | .replayFrom path => s.sub.replayFrom W s.core.initialized path
  | .fuzzSetRate rate => s.sub.fuzzSetRate s.core.initialized rate

/-- Main does not return from an entry function. -/
def callable : Ctx → Call → Bool
  | .main, .exit _ => false
  | _, _ => true

/-- One step. -/
def step (s : State) : Label → Option State
  | .call x c =>
    if s.core.cpu = .user x ∧ callable x c then some (s.settle W (s.fresh.exec x c)) else none
  | .sub x c =>
    if s.core.cpu = .user x then some { s with sub := (s.subExec W c).2 } else none
  | .tau => match s.core.cpu with
    | .user _ => none
    | .sched x caller =>
      (s.sub.pickReadyThreadMode W s.core.config.policy s.core.threads).map fun (pick, sub) =>
        { s with sub := sub }.settle W (s.fresh.runNext x caller pick)
    | .swap none => none
    | .swap (some k) => some (s.settle W (s.fresh.resume k))

end State
end Gth

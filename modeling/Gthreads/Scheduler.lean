/-
  Which thread runs next (`src/sched/scheduler.c`): the policies and the modes.
-/
import Gthreads.Replay
import Gthreads.Fuzz

namespace Gth

/-- The round-robin half of `gth_scheduler_pick_ready_thread`: the first `READY` slot after the
    one picked last, cyclically. -/
def pickRr (threads : Slot → ThreadRecord) (lastRrSlot : Nat) : Option Slot :=
  let start := (lastRrSlot + 1) % 128
  ((List.range 128).map fun i => (⟨(start + i) % 128, Nat.mod_lt _ (by decide)⟩ : Slot)).find?
    fun idx => decide ((threads idx).state = .ready)

/-- One iteration of the priority loop of `gth_scheduler_pick_ready_thread`. -/
def pickPriorityStep (threads : Slot → ThreadRecord) (best : Option Slot) (candidate : Slot) :
    Option Slot :=
  if (threads candidate).state ≠ .ready then best
  else match best with
    | none => some candidate
    | some b =>
      if (threads b).priority < (threads candidate).priority then some candidate
      else if (threads candidate).priority = (threads b).priority
          ∧ (threads candidate).tid < (threads b).tid then some candidate
      else some b

/-- The priority half of `gth_scheduler_pick_ready_thread`. -/
def pickPriority (threads : Slot → ThreadRecord) : Option Slot :=
  (List.finRange 128).foldl (pickPriorityStep threads) none

namespace Sub
variable (W : World)

/-- `gth_scheduler_pick_ready_thread`. -/
def pickReadyThread (u : Sub) (policy : Policy) (threads : Slot → ThreadRecord) :
    Option Slot × Sub :=
  match policy with
  | .rr => match pickRr threads u.lastRrSlot with
    | some idx => (some idx, { u with lastRrSlot := idx })
    | none => (none, u)
  | .priority => (pickPriority threads, u)

/-- `gth_scheduler_pick_ready_thread_mode`; the outer `none` is the fuzzer's rejection loop
    running out of fuel. -/
def pickReadyThreadMode (u : Sub) (policy : Policy) (threads : Slot → ThreadRecord) :
    Option (Option Slot × Sub) :=
  match u.mode, u.replay with
  | .replay, some r =>
    let (pick, r) := replayNextThread threads r
    some (pick, { u with replay := some r })
  | _, _ =>
    let (normalChoice, u) := u.pickReadyThread policy threads
    match u.mode, u.fuzz with
    | .fuzz, some f =>
      (fuzzPickThread threads f normalChoice W.fuel).map fun (pick, f) =>
        (pick, { u with fuzz := some f })
    | _, _ => some (normalChoice, u)

/-- `gth_fuzz_init`. -/
def fuzzInit (u : Sub) (initialized : Bool) (seed : BitVec 64) : Status × Sub :=
  if initialized = false then (.estate, u)
  else if u.fuzz ≠ none then (.estate, u)
  else
    let (a, u) := u.ask W
    if a.ok = false then (.enomem, u) else (.ok, { u with fuzz := some (.ofSeed seed) })

/-- `gth_fuzz_cleanup`. -/
def fuzzCleanup (u : Sub) : Sub := { u with fuzz := none }

/-- `gth_fuzz_set_rate`. -/
def fuzzSetRate (u : Sub) (initialized : Bool) (rate : Nat) : Status × Sub :=
  if initialized = false then (.estate, u)
  else match u.fuzz with
    | none => (.estate, u)
    | some f =>
      if 100 < rate then (.einval, u)
      else (.ok, { u with fuzz := some { f with perturbationRate := rate } })

/-- `gth_scheduler_set_mode`. -/
def schedulerSetMode (u : Sub) (initialized : Bool) (config : Config) (mode : Mode) :
    Status × Sub :=
  if initialized = false then (.estate, u)
  else
    let u := if u.mode = .record ∧ u.trace ≠ none then u.traceCleanup W else u
    let u := if u.mode = .replay ∧ u.replay ≠ none then u.replayCleanup else u
    let u := if u.mode = .fuzz ∧ u.fuzz ≠ none then u.fuzzCleanup else u
    let u := { u with mode := mode }
    match mode with
    | .record =>
      let (status, u) := u.traceInit W initialized
      if status ≠ .ok ∧ status ≠ .estate then (status, { u with mode := .normal }) else (.ok, u)
    | .fuzz =>
      let seed := config.replaySeed.setWidth 64
      let seed := if seed = 0 then 123456789#64 else seed
      let (status, u) := u.fuzzInit W initialized seed
      if status ≠ .ok then (status, { u with mode := .normal }) else (.ok, u)
    | _ => (.ok, u)

end Sub
end Gth

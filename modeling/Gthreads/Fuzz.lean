/-
  Schedule fuzzing (`src/trace/fuzz.c`): a 128-bit shift-register generator decides whether and
  how to deviate from the policy's choice.
-/
import Gthreads.Subsystems

namespace Gth

/-- `XSHIFT_PLUS`. -/
def xshiftPlus : BitVec 64 := 0x9E3779B97F4A7C15#64

/-- `gth_fuzz_seed`. -/
def fuzzSeed (seed : BitVec 64) : BitVec 64 × BitVec 64 :=
  let z := seed + xshiftPlus
  let state0 := (z ^^^ (z >>> 30)) * 0xBF58476D1CE4E5B9#64
  let state1 := state0 + xshiftPlus
  (state0 ^^^ (z >>> 33), state1)

namespace FuzzState

/-- The state after `gth_fuzz_init(seed)`, at the default rate of 10 percent. -/
def ofSeed (seed : BitVec 64) : FuzzState :=
  { state0 := (fuzzSeed seed).1, state1 := (fuzzSeed seed).2, seed := seed,
    decisionCount := 0, perturbationRate := 10 }

/-- `gth_fuzz_xorshift128plus`. -/
def xorshift128plus (f : FuzzState) : BitVec 64 × FuzzState :=
  let s0 := f.state0
  let s1 := f.state1 ^^^ (f.state1 <<< 23)
  let state1 := (f.state1 ^^^ (f.state1 >>> 26)) ^^^ (s1 ^^^ (s1 >>> 17))
  (state1 + s0, { f with state0 := s1, state1 := state1 })

/-- The mask of `gth_fuzz_random_range`. -/
def rangeMask (max : BitVec 64) : BitVec 64 :=
  let mask := max - 1
  let mask := mask ||| (mask >>> 1)
  let mask := mask ||| (mask >>> 2)
  let mask := mask ||| (mask >>> 4)
  let mask := mask ||| (mask >>> 8)
  let mask := mask ||| (mask >>> 16)
  mask ||| (mask >>> 32)

/-- The rejection loop of `gth_fuzz_random_range`; `none` when it has not ended after `fuel`
    draws. -/
def rejectionLoop (f : FuzzState) (mask max : BitVec 64) : Nat → Option (BitVec 64 × FuzzState)
  | 0 => none
  | fuel + 1 =>
    let (draw, f) := f.xorshift128plus
    if max ≤ draw &&& mask then rejectionLoop f mask max fuel else some (draw &&& mask, f)

/-- `gth_fuzz_random_range`. -/
def randomRange (f : FuzzState) (max : BitVec 64) (fuel : Nat) : Option (BitVec 64 × FuzzState) :=
  if max = 0 then some (0, f) else f.rejectionLoop (rangeMask max) max fuel

/-- `gth_fuzz_should_perturb`: never in the first five decisions. -/
def shouldPerturb (f : FuzzState) : Bool × FuzzState :=
  let f := { f with decisionCount := incr64 f.decisionCount }
  if f.decisionCount ≤ 5 then (false, f)
  else
    let (draw, f) := f.xorshift128plus
    (decide (draw.toNat % 100 < f.perturbationRate), f)

end FuzzState

/-- `gth_fuzz_count_ready_threads`. -/
def countReadyThreads (threads : Slot → ThreadRecord) : Nat :=
  (List.finRange 128).countP fun i => decide ((threads i).state = .ready)

/-- The loop of `gth_fuzz_pick_alternative`: the `target`-th `READY` slot other than `exclude`. -/
def alternativeFrom (threads : Slot → ThreadRecord) (exclude : Slot) :
    List Slot → Nat → Option Slot
  | [], _ => none
  | i :: is, target =>
    if (threads i).state ≠ .ready then alternativeFrom threads exclude is target
    else if i = exclude then alternativeFrom threads exclude is target
    else if target = 0 then some i
    else alternativeFrom threads exclude is (target - 1)

/-- `gth_fuzz_pick_alternative`; `none` when the rejection loop ran out of fuel. -/
def pickAlternative (threads : Slot → ThreadRecord) (f : FuzzState) (exclude : Slot) (fuel : Nat) :
    Option (Slot × FuzzState) :=
  let readyCount := countReadyThreads threads
  if readyCount ≤ 1 then some (exclude, f)
  else (f.randomRange (BitVec.ofNat 64 readyCount) fuel).map fun (target, f) =>
    ((alternativeFrom threads exclude (List.finRange 128) target.toNat).getD exclude, f)

/-- `gth_fuzz_pick_thread`; the outer `none` is the rejection loop running out of fuel. -/
def fuzzPickThread (threads : Slot → ThreadRecord) (f : FuzzState) (normalChoice : Option Slot)
    (fuel : Nat) : Option (Option Slot × FuzzState) :=
  match normalChoice with
  | none => some (none, f)
  | some i => match f.shouldPerturb with
    | (false, f) => some (some i, f)
    | (true, f) => (pickAlternative threads f i fuel).map fun (j, f) => (some j, f)

end Gth

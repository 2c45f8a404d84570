/-
  What the fuzzer does to a pick (`gth_fuzz_pick_thread`).

  `gth_fuzz_pick_alternative` counts the `READY` threads, draws an index below that count, and looks
  the index up among the `READY` threads other than the policy's choice (`alternatives`).  There is
  one less of these than was counted, so the greatest index it can draw finds none, and the policy's
  choice stands although `gth_fuzz_should_perturb` decided against it.
-/
import Gthreads.Policies

namespace Gth

variable {threads : Slot → ThreadRecord} {exclude i : Slot}

/-! ## The alternatives -/

/-- The `READY` slots other than `exclude`, in order. -/
def alternatives (threads : Slot → ThreadRecord) (exclude : Slot) : List Slot :=
  ((List.finRange 128).filter fun i => decide ((threads i).state = .ready)).filter (· != exclude)

theorem mem_alternatives :
    i ∈ alternatives threads exclude ↔ (threads i).state = .ready ∧ i ≠ exclude := by
  simp [alternatives, and_comm]

/-- The loop of `gth_fuzz_pick_alternative` indexes the alternatives. -/
theorem alternativeFrom_eq (is : List Slot) (target : Nat) :
    alternativeFrom threads exclude is target =
      ((is.filter fun i => decide ((threads i).state = .ready)).filter (· != exclude))[target]? := by
  induction is generalizing target with
  | nil => rfl
  | cons i is ih =>
    unfold alternativeFrom
    by_cases hi : (threads i).state = .ready
    · rw [if_neg (not_not_intro hi), List.filter_cons_of_pos (by simpa using hi)]
      by_cases hex : i = exclude
      · rw [if_pos hex, List.filter_cons_of_neg (by simpa using hex), ih]
      · rw [if_neg hex, List.filter_cons_of_pos (by simpa using hex)]
        cases target with
        | zero => rfl
        | succ n =>
          rw [if_neg (Nat.succ_ne_zero n), ih]
          rfl
    · rw [if_pos hi, List.filter_cons_of_neg (by simpa using hi), ih]

theorem length_alternatives (hi : (threads i).state = .ready) :
    (alternatives threads i).length + 1 = countReadyThreads threads := by
  have hnodup : ((List.finRange 128).filter fun i => decide ((threads i).state = .ready)).Nodup :=
    (List.nodup_finRange 128).filter _
  have hmem : i ∈ (List.finRange 128).filter fun i => decide ((threads i).state = .ready) := by
    simpa using hi
  have hpos := List.length_pos_of_mem hmem
  rw [alternatives, ← hnodup.erase_eq_filter, List.length_erase_of_mem hmem, countReadyThreads,
    List.countP_eq_length_filter]
  omega

/-! ## The drawn index -/

namespace FuzzState
variable {f f' : FuzzState} {max target : BitVec 64} {fuel : Nat}

theorem rejectionLoop_lt {mask : BitVec 64} {fuel : Nat} :
    ∀ {f : FuzzState}, f.rejectionLoop mask max fuel = some (target, f') → target < max := by
  induction fuel with
  | zero => nofun
  | succ fuel ih =>
    intro f h
    unfold rejectionLoop at h
    dsimp only at h
    split at h
    · exact ih h
    · next hlt =>
      obtain ⟨rfl, -⟩ := Prod.mk.inj (Option.some.inj h)
      exact BitVec.not_le.mp hlt

/-- `gth_fuzz_random_range(max)` is below `max`. -/
theorem randomRange_lt (hmax : max ≠ 0) (h : f.randomRange max fuel = some (target, f')) :
    target < max := by
  unfold randomRange at h
  rw [if_neg hmax] at h
  exact rejectionLoop_lt h

/-- The fields of a fuzzer that no draw changes. -/
def settings (f : FuzzState) : Nat × Nat := (f.decisionCount, f.perturbationRate)

theorem rejectionLoop_settings {mask : BitVec 64} {fuel : Nat} :
    ∀ {f : FuzzState}, f.rejectionLoop mask max fuel = some (target, f') →
      f'.settings = f.settings := by
  induction fuel with
  | zero => nofun
  | succ fuel ih =>
    intro f h
    unfold rejectionLoop at h
    dsimp only at h
    split at h
    · exact (ih h).trans rfl
    · obtain ⟨-, rfl⟩ := Prod.mk.inj (Option.some.inj h)
      rfl

theorem randomRange_settings (h : f.randomRange max fuel = some (target, f')) :
    f'.settings = f.settings := by
  unfold randomRange at h
  split at h
  · obtain ⟨-, rfl⟩ := Prod.mk.inj (Option.some.inj h)
    rfl
  · exact rejectionLoop_settings h

/-- A decision is counted, whatever it is. -/
theorem shouldPerturb_settings (f : FuzzState) :
    f.shouldPerturb.2.settings = (incr64 f.decisionCount, f.perturbationRate) := by
  unfold shouldPerturb
  dsimp only
  split <;> rfl

/-- No decision to perturb in the warm-up and at rate 0. -/
theorem shouldPerturb_never (h : incr64 f.decisionCount ≤ 5 ∨ f.perturbationRate = 0) :
    f.shouldPerturb.1 = false := by
  unfold shouldPerturb
  dsimp only
  split
  · rfl
  · next hwarm =>
    show decide (_ < f.perturbationRate) = false
    rw [h.resolve_left hwarm]
    rfl

/-- At rate 100 every decision after the warm-up is to perturb. -/
theorem shouldPerturb_always (hrate : f.perturbationRate = 100)
    (hwarm : 5 < incr64 f.decisionCount) : f.shouldPerturb.1 = true := by
  unfold shouldPerturb
  dsimp only
  rw [if_neg (by omega)]
  show decide (_ < f.perturbationRate) = true
  rw [hrate]
  exact decide_eq_true (Nat.mod_lt _ (by decide))

end FuzzState

/-! ## The pick -/

section
variable {f f₁ f₂ : FuzzState} {fuel : Nat} {target : BitVec 64}

theorem fuzzPickThread_calm (h : f.shouldPerturb = (false, f₁)) :
    fuzzPickThread threads f (some i) fuel = some (some i, f₁) := by
  unfold fuzzPickThread
  rw [h]

theorem fuzzPickThread_perturb (h : f.shouldPerturb = (true, f₁)) :
    fuzzPickThread threads f (some i) fuel
      = (pickAlternative threads f₁ i fuel).map fun r => (some r.1, r.2) := by
  unfold fuzzPickThread
  rw [h]

/-- What a decision to perturb leads to, with at least two `READY` threads. -/
theorem pickAlternative_eq (hcount : 2 ≤ countReadyThreads threads) :
    pickAlternative threads f i fuel
      = (f.randomRange (BitVec.ofNat 64 (countReadyThreads threads)) fuel).map fun r =>
        ((alternatives threads i)[r.1.toNat]?.getD i, r.2) := by
  unfold pickAlternative
  dsimp only
  rw [if_neg (by omega)]
  simp only [alternativeFrom_eq]
  rfl

theorem pickAlternative_spec {j : Slot} (hi : (threads i).state = .ready)
    (h : pickAlternative threads f i fuel = some (j, f₁)) :
    (threads j).state = .ready ∧ f₁.settings = f.settings := by
  by_cases hcount : 2 ≤ countReadyThreads threads
  · rw [pickAlternative_eq hcount] at h
    obtain ⟨⟨target, f₂⟩, hdraw, heq⟩ := Option.map_eq_some_iff.mp h
    obtain ⟨rfl, rfl⟩ := Prod.mk.inj heq
    refine ⟨?_, FuzzState.randomRange_settings hdraw⟩
    cases hget : (alternatives threads i)[target.toNat]? with
    | none => exact hi
    | some a => exact (mem_alternatives.mp (List.mem_of_getElem? hget)).1
  · unfold pickAlternative at h
    dsimp only at h
    rw [if_pos (by omega)] at h
    obtain ⟨rfl, rfl⟩ := Prod.mk.inj (Option.some.inj h)
    exact ⟨hi, rfl⟩

/-- **What comes out of the fuzzer**: nothing for nothing, and for a `READY` thread a `READY` thread
    and one more decision. -/
theorem fuzzPickThread_spec {choice pick : Option Slot}
    (hchoice : ∀ j, choice = some j → (threads j).state = .ready)
    (h : fuzzPickThread threads f choice fuel = some (pick, f₁)) :
    (choice = none ∧ pick = none ∧ f₁ = f) ∨
    (choice ≠ none ∧ ∃ j, pick = some j ∧ (threads j).state = .ready ∧
      f₁.settings = (incr64 f.decisionCount, f.perturbationRate)) := by
  cases choice with
  | none =>
    obtain ⟨rfl, rfl⟩ := Prod.mk.inj (Option.some.inj h)
    exact Or.inl ⟨rfl, rfl, rfl⟩
  | some i =>
    refine Or.inr ⟨Option.some_ne_none i, ?_⟩
    have hsettings := f.shouldPerturb_settings
    rcases hp : f.shouldPerturb with ⟨b, f₂⟩
    rw [hp] at hsettings
    cases b with
    | false =>
      rw [fuzzPickThread_calm hp] at h
      obtain ⟨rfl, rfl⟩ := Prod.mk.inj (Option.some.inj h)
      exact ⟨i, rfl, hchoice i rfl, hsettings⟩
    | true =>
      rw [fuzzPickThread_perturb hp] at h
      obtain ⟨⟨j, f₃⟩, hj, heq⟩ := Option.map_eq_some_iff.mp h
      obtain ⟨rfl, rfl⟩ := Prod.mk.inj heq
      obtain ⟨hready, hsame⟩ := pickAlternative_spec (hchoice i rfl) hj
      exact ⟨j, rfl, hready, hsame.trans hsettings⟩

end

theorem countReadyThreads_le (threads : Slot → ThreadRecord) :
    countReadyThreads threads ≤ 128 := by
  have hle := List.countP_le_length (l := List.finRange 128)
    (p := fun i => decide ((threads i).state = .ready))
  rwa [List.length_finRange] at hle

/-- **When a perturbation changes the choice.**  Take a table with at least two `READY` threads, of
    which the policy has chosen `i`.  Every other `READY` thread is the answer for some index that
    can be drawn; at rate 100 the decision after the warm-up is to perturb; and if it is, and
    `target` is drawn, the answer is a `READY` thread that differs from `i` iff `target` is not the
    greatest index. -/
theorem perturbation_changes_choice_iff (threads : Slot → ThreadRecord) (i : Slot) (f : FuzzState)
    (fuel : Nat) (hcount : 2 ≤ countReadyThreads threads) (hi : (threads i).state = .ready) :
    (∀ k, (threads k).state = .ready → k ≠ i → ∃ n < countReadyThreads threads,
      alternativeFrom threads i (List.finRange 128) n = some k) ∧
    (f.perturbationRate = 100 → 5 < incr64 f.decisionCount → f.shouldPerturb.1 = true) ∧
    ∀ f₁ f₂ target, f.shouldPerturb = (true, f₁) →
      f₁.randomRange (BitVec.ofNat 64 (countReadyThreads threads)) fuel = some (target, f₂) →
      ∃ j, fuzzPickThread threads f (some i) fuel = some (some j, f₂) ∧
        (threads j).state = .ready ∧ (j ≠ i ↔ target.toNat ≠ countReadyThreads threads - 1) := by
  have hlen := length_alternatives hi
  refine ⟨fun k hk hki => ?_, FuzzState.shouldPerturb_always, fun f₁ f₂ target hf₁ hdraw => ?_⟩
  · obtain ⟨n, hn, hget⟩ := List.mem_iff_getElem.mp (mem_alternatives.mpr ⟨hk, hki⟩)
    refine ⟨n, by omega, ?_⟩
    rw [alternativeFrom_eq]
    exact List.getElem?_eq_some_iff.mpr ⟨hn, hget⟩
  · have hlt : target.toNat < countReadyThreads threads := by
      have hle := countReadyThreads_le threads
      have hmod : countReadyThreads threads % 2 ^ 64 = countReadyThreads threads :=
        Nat.mod_eq_of_lt (by omega)
      have hmax : BitVec.ofNat 64 (countReadyThreads threads) ≠ 0 := by
        intro hzero
        have := congrArg BitVec.toNat hzero
        rw [BitVec.toNat_ofNat, hmod] at this
        simp at this
        omega
      have hdrawn := BitVec.lt_def.mp (FuzzState.randomRange_lt hmax hdraw)
      rwa [BitVec.toNat_ofNat, hmod] at hdrawn
    rw [fuzzPickThread_perturb hf₁, pickAlternative_eq hcount, hdraw]
    refine ⟨(alternatives threads i)[target.toNat]?.getD i, rfl, ?_⟩
    by_cases hn : target.toNat < (alternatives threads i).length
    · have hmem := List.getElem_mem hn
      rw [List.getElem?_eq_getElem hn, Option.getD_some]
      obtain ⟨hready, hne⟩ := mem_alternatives.mp hmem
      exact ⟨hready, fun _ => by omega, fun _ => hne⟩
    · rw [List.getElem?_eq_none (Nat.le_of_not_lt hn), Option.getD_none]
      exact ⟨hi, fun hne => absurd rfl hne, fun hne => absurd (by omega) hne⟩

namespace Sample

/-- Two `READY` threads. -/
def twoReady : Slot → ThreadRecord := table [(1, 0, .ready), (2, 0, .ready)]

/-- The generator after the warm-up, at rate 100. -/
def warmFuzz (seed : BitVec 64) : FuzzState :=
  { FuzzState.ofSeed seed with decisionCount := 5, perturbationRate := 100 }

end Sample

theorem perturbation_changes_choice_two : ∃ j f₂,
    fuzzPickThread Sample.twoReady (Sample.warmFuzz 0) (some 0) 100 = some (some j, f₂) ∧
      (Sample.twoReady j).state = .ready ∧ j ≠ 0 := by
  obtain ⟨-, hrate, hpick⟩ := perturbation_changes_choice_iff Sample.twoReady 0 (Sample.warmFuzz 0)
    100 (by decide) rfl
  have hf₁ := Prod.ext (hrate rfl (by decide)) (rfl (a := (Sample.warmFuzz 0).shouldPerturb.2))
  have hdraw : ((Sample.warmFuzz 0).shouldPerturb.2.randomRange
      (BitVec.ofNat 64 (countReadyThreads Sample.twoReady)) 100).map (fun r => r.1.toNat)
        = some 0 := by decide +kernel
  obtain ⟨⟨target, f₂⟩, hdraw, htarget⟩ := Option.map_eq_some_iff.mp hdraw
  obtain ⟨j, hj, hready, hiff⟩ := hpick _ f₂ target hf₁ hdraw
  refine ⟨j, f₂, hj, hready, hiff.mpr ?_⟩
  rw [show target.toNat = 0 from htarget]
  decide

/-- **A perturbation that changes nothing**: the first decision after the warm-up at rate 100 with
    the default seed.  Index 1 is drawn, and there is one alternative. -/
theorem perturbation_keeps_choice :
    (Sample.warmFuzz 123456789).shouldPerturb.1 = true ∧
    (fuzzPickThread Sample.twoReady (Sample.warmFuzz 123456789) (some 0) 100).map Prod.fst
      = some (some 0) := by
  decide +kernel

end Gth

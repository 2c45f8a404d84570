/-
  The generator of the fuzzer (`gth_fuzz_seed`, `gth_fuzz_xorshift128plus`,
  `gth_fuzz_random_range`).

  The new state is a function of `state[1]` alone: `state[0]` goes into the output of one draw and
  is then forgotten.  What is left, the map from `state[1]` to the next `state[1]` (`mix`), is linear
  over the field with two elements and invertible; that keeps generators with different `state[1]`
  apart and `state[1]` away from zero.
-/
import Gthreads.FuzzRuns
import Gthreads.Lib.Words

namespace Gth

/-! ## Draws -/

/-- What a draw makes of `state[1]`. -/
def mix (x : BitVec 64) : BitVec 64 :=
  (x ^^^ (x >>> 26)) ^^^ ((x ^^^ (x <<< 23)) ^^^ ((x ^^^ (x <<< 23)) >>> 17))

/-- The columns of the inverse of `mix`. -/
def unmixColumns : List (BitVec 64) :=
  [0x03fffe000003fe00, 0x0400020000040200, 0x0800040000080400, 0x1000080000100800,
    0x2000100000201000, 0x4000200000402000, 0x8000400000804000, 0x8002420000804203,
    0x8006460000804605, 0x800e4e0000804e09, 0x801e5e0000805e11, 0x803e7e0000807e21,
    0x807e3e0000803e41, 0x80febe000080be81, 0x81ffbe000081bf01, 0x8002400000804201,
    0x8006420000804601, 0x800e460000804e01, 0x801e4e0000805e01, 0x803e5e0000807e01,
    0x807e7e0000803e01, 0x80fe3e000080be01, 0x81febe000081be01, 0x8000400000804001,
    0x8002420000804201, 0x8006460000804601, 0x800e4e0000804e01, 0x801e5e0000805e01,
    0x803e7e0000807e01, 0x807e3e0000803e01, 0x80febe000080be01, 0x81ffbe000081be01,
    0x8002400000804001, 0x8006420000804201, 0x800e460000804601, 0x801e4e0000804e01,
    0x803e5e0000805e01, 0x807e7e0000807e01, 0x80fe3e0000803e01, 0x81febe000080be01,
    0x83ffbe000081be01, 0x8402400000804001, 0x8806420000804201, 0x900e460000804601,
    0xa01e4e0000804e01, 0xc03e5e0000805e01, 0x007e7e0000807e01, 0x00fcfc000100fc02,
    0x01f9f8000201f804, 0x03f3f0000403f008, 0x04181e0008041e10, 0x08303c0010083c20,
    0x1060780020107840, 0x20c0f0004020f080, 0x4181e0008041e100, 0x80fc3e0100803c00,
    0x81fabe020080ba03, 0x83f7be040081b605, 0x8412400800805009, 0x8826421000806211,
    0x904e462000800621, 0xa09e4e400080ce41, 0xc13e5e8000815e81, 0x0181810000818101]

theorem linear_mix : Words.Linear mix := by
  have hshift : Words.Linear fun x : BitVec 64 => x ^^^ (x <<< 23) :=
    Words.Linear.id.xor (Words.Linear.id.shiftLeft 23)
  exact (Words.Linear.id.xor (Words.Linear.id.ushiftRight 26)).xor
    (hshift.xor (hshift.ushiftRight 17))

theorem mix_injective : Function.Injective mix :=
  linear_mix.injective_of_columns unmixColumns (by decide +kernel)

theorem mix_eq_zero {x : BitVec 64} : mix x = 0 ↔ x = 0 := by
  constructor
  · intro h
    exact mix_injective (h.trans linear_mix.zero.symm)
  · rintro rfl
    exact linear_mix.zero

namespace FuzzState
variable {f g : FuzzState}

/-- The 128 bits of the generator. -/
def words (f : FuzzState) : BitVec 64 × BitVec 64 := (f.state0, f.state1)

/-- The state after `n` draws. -/
def draws (f : FuzzState) : Nat → FuzzState
  | 0 => f
  | n + 1 => (f.draws n).xorshift128plus.2

theorem draws_state1 (f : FuzzState) (n : Nat) : (f.draws n).state1 = mix^[n] f.state1 := by
  induction n with
  | zero => rfl
  | succ n ih =>
    rw [Function.iterate_succ_apply', ← ih]
    rfl

theorem draws_next (f : FuzzState) (n : Nat) :
    f.xorshift128plus.2.draws n = f.draws (n + 1) := by
  induction n with
  | zero => rfl
  | succ n ih =>
    show (f.xorshift128plus.2.draws n).xorshift128plus.2 = (f.draws (n + 1)).xorshift128plus.2
    rw [ih]

/-- **One draw** tells two generators apart iff `state[1]` does. -/
theorem words_draw : f.xorshift128plus.2.words = g.xorshift128plus.2.words ↔
    f.state1 = g.state1 := by
  constructor
  · intro h
    exact mix_injective (congrArg Prod.snd h)
  · intro h
    show (f.state1 ^^^ (f.state1 <<< 23), mix f.state1)
      = (g.state1 ^^^ (g.state1 <<< 23), mix g.state1)
    rw [h]

theorem words_draws (n : Nat) : (f.draws (n + 1)).words = (g.draws (n + 1)).words ↔
    f.state1 = g.state1 := by
  show (f.draws n).xorshift128plus.2.words = (g.draws n).xorshift128plus.2.words ↔ _
  rw [words_draw, draws_state1, draws_state1]
  exact (mix_injective.iterate n).eq_iff

/-- The output of a draw is a function of the 128 bits. -/
theorem draw_congr (h : f.words = g.words) : f.xorshift128plus.1 = g.xorshift128plus.1 := by
  obtain ⟨h0, h1⟩ := Prod.mk.inj h
  show mix f.state1 + f.state0 = mix g.state1 + g.state0
  rw [h0, h1]

end FuzzState

/-- **When two generators stay apart.**  Two generators in different states have different
    successors iff they differ in `state[1]`; then they never meet again, and otherwise they agree
    from their second draw on. -/
theorem generators_apart_iff (f g : FuzzState) (hne : f.words ≠ g.words) :
    (f.xorshift128plus.2.words ≠ g.xorshift128plus.2.words ↔ f.state1 ≠ g.state1) ∧
    ((∀ n, (f.draws n).words ≠ (g.draws n).words) ↔ f.state1 ≠ g.state1) ∧
    (f.state1 = g.state1 →
      ∀ n, (f.draws (n + 1)).xorshift128plus.1 = (g.draws (n + 1)).xorshift128plus.1) := by
  refine ⟨not_congr FuzzState.words_draw, ⟨fun hall => ?_, fun hdiff n => ?_⟩, fun hsame n => ?_⟩
  · exact mt (FuzzState.words_draws 0).mpr (hall 1)
  · cases n with
    | zero => exact hne
    | succ n => exact mt (FuzzState.words_draws n).mp hdiff
  · exact FuzzState.draw_congr ((FuzzState.words_draws n).mpr hsame)

theorem generators_apart_seeds :
    ((FuzzState.ofSeed 1).draws 1000).words ≠ ((FuzzState.ofSeed 2).draws 1000).words :=
  (generators_apart_iff (.ofSeed 1) (.ofSeed 2) (by decide)).2.1.mpr (by decide) 1000

/-- **Two states with one successor**: they differ in `state[0]` only. -/
theorem generators_merge :
    let f : FuzzState := ⟨0, 1, 1, 0, 10⟩
    let g : FuzzState := ⟨1, 1, 2, 0, 10⟩
    f.words ≠ g.words ∧ f.xorshift128plus.2.words = g.xorshift128plus.2.words := by
  decide

/-! ## Seeds -/

/-- The seed that `gth_scheduler_set_mode` passes to `gth_fuzz_init`. -/
def modeSeed (replaySeed : BitVec 32) : BitVec 64 :=
  if replaySeed.setWidth 64 = 0 then 123456789#64 else replaySeed.setWidth 64

theorem modeSeed_lt (replaySeed : BitVec 32) : (modeSeed replaySeed).toNat < 2 ^ 32 := by
  unfold modeSeed
  split
  · decide
  · rw [BitVec.toNat_setWidth]
    have := replaySeed.isLt
    omega

/-- **One seed of the 2^64 leads to `state[1] = 0`.**  Both parts of the seeding, the
    multiplication by an odd number and the shift, can be undone. -/
theorem fuzzSeed_state1 {seed : BitVec 64} :
    (fuzzSeed seed).2 = 0 ↔ seed = 0x92fde508d6dd37b5#64 := by
  constructor
  · intro h
    have hmul : ((seed + xshiftPlus) ^^^ ((seed + xshiftPlus) >>> 30)) * 0xBF58476D1CE4E5B9#64
        = -xshiftPlus := eq_neg_of_add_eq_zero_left h
    have hmixed : (seed + xshiftPlus) ^^^ ((seed + xshiftPlus) >>> 30) = 0x31355ec292f2c8c3#64 := by
      have hinv := congrArg (· * 0x96de1b173f119089#64) hmul
      simp only [BitVec.mul_assoc] at hinv
      rw [show 0xBF58476D1CE4E5B9#64 * 0x96de1b173f119089#64 = 1#64 by decide, BitVec.mul_one] at hinv
      exact hinv.trans (by decide)
    have hz : seed + xshiftPlus = 0x31355ec25627b3ca#64 :=
      Words.xor_ushiftRight_injective (by decide : 0 < 30) (hmixed.trans (by decide))
    exact (eq_sub_of_add_eq hz).trans (by decide)
  · rintro rfl
    decide

theorem ofSeed_modeSeed_alive (replaySeed : BitVec 32) :
    (FuzzState.ofSeed (modeSeed replaySeed)).state1 ≠ 0 := by
  intro h
  have hlt := modeSeed_lt replaySeed
  rw [fuzzSeed_state1.mp h] at hlt
  exact absurd hlt (by decide)

theorem FuzzState.draws_alive {f : FuzzState} (n : Nat) :
    (f.draws n).state1 ≠ 0 ↔ f.state1 ≠ 0 := by
  induction n with
  | zero => exact Iff.rfl
  | succ n ih => exact (not_congr mix_eq_zero).trans ih

/-- In the all-zero state every draw is 0. -/
theorem FuzzState.draws_zero {f : FuzzState} (h : f.words = (0, 0)) (n : Nat) :
    (f.draws n).words = (0, 0) ∧ (f.draws n).xorshift128plus.1 = 0 := by
  have hwords : (f.draws n).words = (0, 0) := by
    induction n with
    | zero => exact h
    | succ n ih =>
      obtain ⟨-, h1⟩ := Prod.mk.inj ih
      show ((f.draws n).state1 ^^^ ((f.draws n).state1 <<< 23), mix (f.draws n).state1) = (0, 0)
      rw [h1]
      rfl
  obtain ⟨h0, h1⟩ := Prod.mk.inj hwords
  refine ⟨hwords, ?_⟩
  show mix (f.draws n).state1 + (f.draws n).state0 = 0
  rw [h0, h1]
  rfl

/-- … and so every decision after the warm-up is to perturb. -/
theorem FuzzState.shouldPerturb_zero {f : FuzzState} (h : f.words = (0, 0))
    (hwarm : 5 < incr64 f.decisionCount) (hrate : 0 < f.perturbationRate) :
    f.shouldPerturb.1 = true := by
  have hdraw : f.xorshift128plus.1 = 0 := (draws_zero h 0).2
  unfold shouldPerturb
  dsimp only
  rw [if_neg (by omega)]
  show decide (f.xorshift128plus.1.toNat % 100 < f.perturbationRate) = true
  rw [hdraw]
  exact decide_eq_true hrate

/-! ## The rejection loop -/

namespace FuzzState
variable {f f' : FuzzState} {max r : BitVec 64} {fuel : Nat}

/-- The raw draws with which `gth_fuzz_random_range(max)` ends and returns `v`. -/
def acceptedAs (max v : BitVec 64) : Finset (BitVec 64) :=
  Finset.univ.filter fun draw => draw &&& rangeMask max < max ∧ draw &&& rangeMask max = v

theorem mem_acceptedAs {v draw : BitVec 64} : draw ∈ acceptedAs max v ↔
    draw &&& rangeMask max < max ∧ draw &&& rangeMask max = v := by
  rw [acceptedAs, Finset.mem_filter]
  exact and_iff_right (Finset.mem_univ draw)

/-- Draw number `n` is the first one that is accepted, and it is accepted as `r`. -/
def EndsAt (max r : BitVec 64) (f : FuzzState) (n : Nat) : Prop :=
  (f.draws n).xorshift128plus.1 ∈ acceptedAs max r ∧
    ∀ m < n, ∀ v, (f.draws m).xorshift128plus.1 ∉ acceptedAs max v

theorem endsAt_zero : EndsAt max r f 0 ↔ f.xorshift128plus.1 ∈ acceptedAs max r :=
  and_iff_left fun m hm => absurd hm (Nat.not_lt_zero m)

theorem endsAt_succ {n : Nat} : EndsAt max r f (n + 1) ↔
    (∀ v, f.xorshift128plus.1 ∉ acceptedAs max v) ∧ EndsAt max r f.xorshift128plus.2 n := by
  unfold EndsAt
  rw [Nat.forall_lt_succ_left, draws_next]
  simp only [draws_next]
  exact and_left_comm

/-- **The loop ends with the first draw that is accepted**, and with its value.  Induction on the
    fuel, the generator one draw further each time. -/
theorem rejectionLoop_iff : ∀ {f : FuzzState},
    f.rejectionLoop (rangeMask max) max fuel = some (r, f') ↔
      ∃ n < fuel, f' = f.draws (n + 1) ∧ EndsAt max r f n := by
  induction fuel with
  | zero =>
    intro f
    exact ⟨nofun, fun ⟨n, hn, _⟩ => absurd hn (Nat.not_lt_zero n)⟩
  | succ fuel ih =>
    intro f
    unfold rejectionLoop
    dsimp only
    by_cases hreject : max ≤ f.xorshift128plus.1 &&& rangeMask max
    · -- the first draw is nobody's: what follows is the loop from the next state on
      have hfirst : ∀ v, f.xorshift128plus.1 ∉ acceptedAs max v := by
        intro v hv
        exact absurd hreject (BitVec.not_le.mpr (mem_acceptedAs.mp hv).1)
      rw [if_pos hreject, ih]
      constructor
      · rintro ⟨n, hn, rfl, hends⟩
        exact ⟨n + 1, by omega, f.draws_next (n + 1), endsAt_succ.mpr ⟨hfirst, hends⟩⟩
      · rintro ⟨n, hn, rfl, hends⟩
        cases n with
        | zero => exact absurd (endsAt_zero.mp hends) (hfirst r)
        | succ n =>
          exact ⟨n, by omega, (f.draws_next (n + 1)).symm, (endsAt_succ.mp hends).2⟩
    · -- the first draw is accepted, so the loop ends there
      have hfirst : f.xorshift128plus.1 ∈ acceptedAs max (f.xorshift128plus.1 &&& rangeMask max) :=
        mem_acceptedAs.mpr ⟨BitVec.not_le.mp hreject, rfl⟩
      rw [if_neg hreject]
      constructor
      · intro h
        obtain ⟨rfl, rfl⟩ := Prod.mk.inj (Option.some.inj h)
        exact ⟨0, by omega, rfl, endsAt_zero.mpr hfirst⟩
      · rintro ⟨n, -, rfl, hends⟩
        cases n with
        | zero =>
          obtain rfl := (mem_acceptedAs.mp (endsAt_zero.mp hends)).2
          rfl
        | succ n => exact absurd hfirst ((endsAt_succ.mp hends).1 _)

theorem randomRange_of_ne (h : max ≠ 0) :
    f.randomRange max fuel = f.rejectionLoop (rangeMask max) max fuel := if_neg h

theorem randomRange_draws (h : f.randomRange max fuel = some (r, f')) : ∃ n, f' = f.draws n := by
  unfold randomRange at h
  split at h
  · obtain ⟨-, rfl⟩ := Prod.mk.inj (Option.some.inj h)
    exact ⟨0, rfl⟩
  · obtain ⟨n, -, rfl, -⟩ := rejectionLoop_iff.mp h
    exact ⟨n + 1, rfl⟩

/-- The cascade of `gth_fuzz_random_range` fills all places below the highest bit of `max - 1`. -/
theorem toNat_rangeMask (max : BitVec 64) :
    (rangeMask max).toNat = 2 ^ (max - 1).toNat.size - 1 := by
  have h64 : Words.Smears (max - 1) (rangeMask max) (32 + 32) :=
    (((((Words.Smears.refl (max - 1)).step.step).step).step).step).step
  exact h64.toNat_eq (by decide)

theorem toNat_pred (hmax : 1 ≤ max.toNat) : (max - 1).toNat = max.toNat - 1 := by
  rw [BitVec.toNat_sub_of_le (show (1 : BitVec 64) ≤ max from hmax)]
  rfl

theorem card_acceptedAs {v : BitVec 64} (hmax : 1 ≤ max.toNat) (hv : v < max) :
    (acceptedAs max v).card = 2 ^ (64 - (max - 1).toNat.size) := by
  have hpred := toNat_pred hmax
  have hv := BitVec.lt_def.mp hv
  have hbits := Nat.lt_size_self (max - 1).toNat
  have hset : acceptedAs max v
      = Finset.univ.filter fun draw : BitVec 64 => draw &&& rangeMask max = v := by
    ext draw
    rw [mem_acceptedAs, Finset.mem_filter]
    constructor
    · rintro ⟨-, heq⟩
      exact ⟨Finset.mem_univ draw, heq⟩
    · rintro ⟨-, heq⟩
      exact ⟨by rw [heq]; exact hv, heq⟩
  rw [hset]
  exact Words.card_masked (Nat.size_le.mpr (max - 1).isLt) (toNat_rangeMask max) (by omega)

end FuzzState

/-- **Rejection sampling is exact.**  The mask is the least `2 ^ k - 1` that is at least `max - 1`;
    of the `2 ^ 64` raw draws `max * 2 ^ (64 - k)` are accepted, at least half of them, and for each
    value below `max` equally many.  The loop returns a value below `max`, and it returns `r` within
    `fuel` draws if and only if one of them is accepted as `r` and none before it as any value. -/
theorem rejection_sampling_exact (max : BitVec 64) (hmax : 1 ≤ max.toNat) : ∃ k ≤ 64,
    (FuzzState.rangeMask max).toNat = 2 ^ k - 1 ∧
    max.toNat - 1 ≤ 2 ^ k - 1 ∧ (∀ j, max.toNat - 1 ≤ 2 ^ j - 1 → 2 ^ k - 1 ≤ 2 ^ j - 1) ∧
    (FuzzState.rangeMask max).toNat < 2 * max.toNat ∧
    (Finset.univ.filter fun draw : BitVec 64 => draw &&& FuzzState.rangeMask max < max).card
      = max.toNat * 2 ^ (64 - k) ∧
    2 ^ 64 ≤ 2 * (max.toNat * 2 ^ (64 - k)) ∧
    (∀ v, v < max → (FuzzState.acceptedAs max v).card = 2 ^ (64 - k)) ∧
    ∀ (f f' : FuzzState) (fuel : Nat) (r : BitVec 64),
      (f.randomRange max fuel = some (r, f') → r < max) ∧
      (f.randomRange max fuel = some (r, f') ↔ ∃ n < fuel, f' = f.draws (n + 1) ∧
        (f.draws n).xorshift128plus.1 ∈ FuzzState.acceptedAs max r ∧
        ∀ m < n, ∀ v, (f.draws m).xorshift128plus.1 ∉ FuzzState.acceptedAs max v) := by
  have hpred := FuzzState.toNat_pred hmax
  have hmask := FuzzState.toNat_rangeMask max
  have hsize : (max - 1).toNat.size ≤ 64 := Nat.size_le.mpr (max - 1).isLt
  have hlow := Nat.lt_size_self (max - 1).toNat
  have hcard : ∀ v, v < max →
      (FuzzState.acceptedAs max v).card = 2 ^ (64 - (max - 1).toNat.size) :=
    fun v hv => FuzzState.card_acceptedAs hmax hv
  generalize hk : (max - 1).toNat.size = k at hmask hsize hlow hcard
  have hhalf : 2 ^ k ≤ 2 * max.toNat := by
    cases k with
    | zero => omega
    | succ k =>
      have hbit : 2 ^ k ≤ (max - 1).toNat := Nat.lt_size.mp (by omega)
      rw [Nat.pow_succ]
      omega
  have hpos : 0 < 2 ^ k := Nat.two_pow_pos k
  refine ⟨k, hsize, hmask, by omega, fun j hj => ?_, by omega, ?_, ?_, hcard, ?_⟩
  · have hkj : k ≤ j := by
      rw [← hk]
      have := Nat.two_pow_pos j
      exact Nat.size_le.mpr (by omega)
    exact Nat.sub_le_sub_right (Nat.pow_le_pow_right (by decide) hkj) 1
  · have hfibres := Finset.card_eq_sum_card_fiberwise
      (s := Finset.univ.filter fun draw : BitVec 64 => draw &&& FuzzState.rangeMask max < max)
      (t := Finset.univ.filter fun v : BitVec 64 => v < max)
      (f := fun draw => draw &&& FuzzState.rangeMask max) fun draw hdraw => by
        have hdraw := (Finset.mem_filter.mp (Finset.mem_coe.mp hdraw)).2
        exact Finset.mem_coe.mpr (Finset.mem_filter.mpr ⟨Finset.mem_univ _, hdraw⟩)
    rw [hfibres, Finset.sum_const_nat (m := 2 ^ (64 - k)), Words.card_lt]
    intro v hv
    rw [Finset.filter_filter]
    exact hcard v (Finset.mem_filter.mp hv).2
  · calc 2 ^ 64 = 2 ^ k * 2 ^ (64 - k) := by rw [← Nat.pow_add, Nat.add_sub_cancel' hsize]
      _ ≤ 2 * max.toNat * 2 ^ (64 - k) := Nat.mul_le_mul_right _ hhalf
      _ = 2 * (max.toNat * 2 ^ (64 - k)) := Nat.mul_assoc _ _ _
  · intro f f' fuel r
    have hne : max ≠ 0 := by
      rintro rfl
      exact absurd hmax (by decide)
    refine ⟨FuzzState.randomRange_lt hne, ?_⟩
    rw [FuzzState.randomRange_of_ne hne]
    exact FuzzState.rejectionLoop_iff

/-- Three values take a mask of two bits: a quarter of the draws for each of them.  From seed 25 the
    loop rejects two draws and returns the value of the third. -/
theorem rejection_sampling_three : (FuzzState.acceptedAs 3#64 1#64).card = 2 ^ 62 ∧
    (FuzzState.ofSeed 25#64).randomRange 3#64 3
      = some (1#64, (FuzzState.ofSeed 25#64).draws 3) := by
  obtain ⟨k, -, hmask, -, -, -, -, -, hcard, hloop⟩ := rejection_sampling_exact 3#64 (by decide)
  have hk : k = 2 := by
    have hmask : (2 : Nat) ^ 2 - 1 = 2 ^ k - 1 := hmask
    have hpos := Nat.two_pow_pos k
    exact Nat.pow_right_injective (Nat.le_refl 2) (show 2 ^ k = 2 ^ 2 by omega)
  rw [hk] at hcard
  refine ⟨hcard 1#64 (by decide), (hloop _ _ 3 1#64).2.mpr ⟨2, by decide, rfl, ?_, ?_⟩⟩
  · exact FuzzState.mem_acceptedAs.mpr (by decide)
  · intro m hm v hv
    have hlt := (FuzzState.mem_acceptedAs.mp hv).1
    obtain rfl | rfl : m = 0 ∨ m = 1 := by omega
    · exact absurd hlt (by decide)
    · exact absurd hlt (by decide)

/-! ## The generator in a run -/

namespace Sub
variable {W : World} {u v : Sub}

/-- The generator, if there is one, is not stuck at zero. -/
def Alive (u : Sub) : Prop := ∀ f, u.fuzz = some f → f.state1 ≠ 0

theorem alive_congr (h : v.frame = u.frame) (hu : u.Alive) : v.Alive := by
  have hfuzz : v.fuzz = u.fuzz := congrArg (fun c => c.1.2.2) h
  intro f hf
  exact hu f (hfuzz.symm.trans hf)

theorem Alive.leaveMode (hu : u.Alive) : (u.leaveMode W).Alive := by
  have hfuzz : (u.leaveMode W).fuzz = if u.mode = .fuzz then none else u.fuzz :=
    congrArg (fun c => c.1.2.2) (leaveMode_frame W u)
  intro f hf
  rw [hfuzz] at hf
  split at hf
  · cases hf
  · exact hu f hf

/-- **A change of mode** leaves the generator, drops it, or seeds a new one. -/
theorem Alive.schedulerSetMode (hu : u.Alive) (initialized : Bool) (config : Config) (mode : Mode) :
    (u.schedulerSetMode W initialized config mode).2.Alive := by
  cases initialized with
  | false => exact hu
  | true =>
    have hleft : (u.leaveMode W).Alive := hu.leaveMode
    rw [schedulerSetMode_eq]
    cases mode with
    | normal => exact hleft
    | replay => exact hleft
    | record =>
      have hinit : (traceInit W { u.leaveMode W with mode := .record } true).2.Alive :=
        alive_congr (frame_traceInit W _ true) hleft
      dsimp only
      split
      · exact hinit
      · exact hinit
    | fuzz =>
      dsimp only
      by_cases hf : (u.leaveMode W).fuzz = none
      · rw [fuzzInit_none (u := { u.leaveMode W with mode := .fuzz }) hf]
        dsimp only
        cases (W.answer (u.leaveMode W).calls).ok with
        | false => exact hleft
        | true =>
          intro f hseeded
          obtain rfl := Option.some.inj hseeded
          exact ofSeed_modeSeed_alive config.replaySeed
      · have hbusy : ∀ seed, fuzzInit W { u.leaveMode W with mode := .fuzz } true seed
            = (.estate, { u.leaveMode W with mode := .fuzz }) := fun seed => if_pos hf
        rw [hbusy]
        exact hleft

theorem Alive.replayFrom (hu : u.Alive) (initialized : Bool) (path : Option Path) :
    (u.replayFrom W initialized path).2.Alive := by
  have hinit : (u.replayInit W initialized path).2.Alive := by
    rcases replayInit_cases W u initialized path with ⟨-, hframe⟩ | ⟨-, -, -, -, hfuzz, -⟩
    · exact alive_congr hframe hu
    · exact fun f hf => hu f (hfuzz.symm.trans hf)
  unfold Sub.replayFrom
  generalize u.replayInit W initialized path = r at hinit ⊢
  obtain ⟨st, v⟩ := r
  cases st <;> exact hinit

theorem Alive.fuzzSetRate (hu : u.Alive) (initialized : Bool) (rate : Nat) :
    (u.fuzzSetRate initialized rate).2.Alive := by
  unfold Sub.fuzzSetRate
  split
  · exact hu
  · split
    · exact hu
    · next f hf =>
      split
      · exact hu
      · intro g hg
        obtain rfl := Option.some.inj hg
        exact hu f hf

end Sub

theorem FuzzState.shouldPerturb_alive {f : FuzzState} (hf : f.state1 ≠ 0) :
    f.shouldPerturb.2.state1 ≠ 0 := by
  unfold shouldPerturb
  dsimp only
  split
  · exact hf
  · exact (draws_alive 1).mpr hf

theorem fuzzPickThread_alive {threads : Slot → ThreadRecord} {f f' : FuzzState}
    {choice pick : Option Slot} {fuel : Nat} (hf : f.state1 ≠ 0)
    (h : fuzzPickThread threads f choice fuel = some (pick, f')) : f'.state1 ≠ 0 := by
  cases choice with
  | none =>
    obtain ⟨-, rfl⟩ := Prod.mk.inj (Option.some.inj h)
    exact hf
  | some i =>
    have hdecided := FuzzState.shouldPerturb_alive hf
    rcases hp : f.shouldPerturb with ⟨b, f₁⟩
    rw [hp] at hdecided
    cases b with
    | false =>
      rw [fuzzPickThread_calm hp] at h
      obtain ⟨-, rfl⟩ := Prod.mk.inj (Option.some.inj h)
      exact hdecided
    | true =>
      rw [fuzzPickThread_perturb hp] at h
      obtain ⟨⟨j, f₂⟩, hj, heq⟩ := Option.map_eq_some_iff.mp h
      obtain ⟨-, rfl⟩ := Prod.mk.inj heq
      unfold pickAlternative at hj
      dsimp only at hj
      split at hj
      · obtain ⟨-, rfl⟩ := Prod.mk.inj (Option.some.inj hj)
        exact hdecided
      · obtain ⟨⟨target, f₃⟩, hdraw, heq⟩ := Option.map_eq_some_iff.mp hj
        obtain ⟨-, rfl⟩ := Prod.mk.inj heq
        obtain ⟨n, rfl⟩ := FuzzState.randomRange_draws hdraw
        exact (FuzzState.draws_alive n).mpr hdecided

namespace State
variable {W : World} {s t : State}

theorem subExec_alive (hs : s.sub.Alive) (c : SubCall) : (s.subExec W c).2.Alive := by
  cases c with
  | setMode mode => exact hs.schedulerSetMode s.core.initialized s.core.config mode
  | traceStart path => exact Sub.alive_congr (Sub.frame_traceStart W s.sub _ path) hs
  | traceStop => exact Sub.alive_congr (Sub.frame_traceStop W s.sub _) hs
  | traceFlush => exact Sub.alive_congr (Sub.frame_traceFlush W s.sub) hs
  | replayFrom path => exact hs.replayFrom s.core.initialized path
  | fuzzSetRate rate => exact hs.fuzzSetRate s.core.initialized rate

theorem step_alive {l : Label} (hs : s.sub.Alive) (h : step W s l = some t) : t.sub.Alive := by
  rcases step_cases h with ⟨x, c, -, -, rfl⟩ | ⟨x, c, -, -, -, rfl⟩ |
      ⟨x, caller, pick, sub, -, -, hpick, rfl⟩ | ⟨k, -, -, rfl⟩
  · exact subExec_alive hs c
  · exact Sub.alive_congr (s.settle_frame _) hs
  · refine Sub.alive_congr (settle_frame { s with sub := sub } _) ?_
    rcases pickReadyThreadMode_cases hpick with ⟨r, -, -, -, rfl⟩ | ⟨f, f', -, hf, hfuzz, rfl⟩ |
        ⟨-, -, heq⟩
    · exact hs
    · intro g hg
      obtain rfl := Option.some.inj hg
      exact fuzzPickThread_alive (hs f hf) hfuzz
    · obtain rfl : sub = (s.sub.pickReadyThread _ _).2 := congrArg Prod.snd heq
      rw [pickReadyThread_sub]
      exact hs
  · exact Sub.alive_congr (s.settle_frame _) hs

/-- **In every run, the generator is alive.** -/
theorem exec_alive {config : ValidConfig} {pageSize : BitVec 64}
    {files : Path → Option (List UInt8)} {ls : List Label}
    (hrun : Exec.exec (step W) (State.start config pageSize files) ls = some s) : s.sub.Alive := by
  refine Exec.exec_induct (P := fun _ t => t.sub.Alive) ?_
    (fun _ _ _ _ _ ih hstep => step_alive ih hstep) ls s hrun
  show (runtimeInit (State.loaded config.1 pageSize files) (some config.1)).2.sub.Alive
  unfold runtimeInit
  dsimp only
  rw [if_neg (by rw [config.2]; decide)]
  exact nofun

end State

/-- **The generator never degenerates.**  After any number of draws from any seed that a
    configuration can give, `state[1]` is not zero; nor is it in any state of any run.  In the
    all-zero state, which is thus never reached, every draw is 0, and every decision after the
    warm-up is to perturb. -/
theorem generator_never_degenerates :
    (∀ (replaySeed : BitVec 32) (n : Nat),
      ((FuzzState.ofSeed (modeSeed replaySeed)).draws n).state1 ≠ 0 ∧
      ((FuzzState.ofSeed (modeSeed replaySeed)).draws n).words ≠ (0, 0)) ∧
    (∀ (W : World) (config : ValidConfig) (pageSize : BitVec 64)
      (files : Path → Option (List UInt8)) (ls : List Label) (s : State) (f : FuzzState),
      Exec.exec (State.step W) (State.start config pageSize files) ls = some s →
      s.sub.fuzz = some f → f.state1 ≠ 0 ∧ f.words ≠ (0, 0)) ∧
    ∀ f : FuzzState, f.words = (0, 0) →
      (∀ n, (f.draws n).words = (0, 0) ∧ (f.draws n).xorshift128plus.1 = 0) ∧
      (5 < incr64 f.decisionCount → 0 < f.perturbationRate → f.shouldPerturb.1 = true) := by
  have hwords : ∀ f : FuzzState, f.state1 ≠ 0 → f.words ≠ (0, 0) :=
    fun f hf hz => hf (Prod.mk.inj hz).2
  refine ⟨fun replaySeed n => ?_, fun W config pageSize files ls s f hrun hf => ?_, fun f hf => ?_⟩
  · have halive := (FuzzState.draws_alive n).mpr (ofSeed_modeSeed_alive replaySeed)
    exact ⟨halive, hwords _ halive⟩
  · have halive := State.exec_alive hrun f hf
    exact ⟨halive, hwords f halive⟩
  · exact ⟨FuzzState.draws_zero hf, FuzzState.shouldPerturb_zero hf⟩

namespace Sample

/-- In fuzz mode, main yields `n` times to its thread, which yields back. -/
def fuzzed (n : Nat) : List Label :=
  [main create, .sub .main (.setMode .fuzz)]
    ++ (List.replicate n [main .yield, .tau, .tau, green 0 .yield, .tau]).flatten

end Sample

/-- The sixth and the seventh decision draw from the generator. -/
theorem generator_never_degenerates_run : ∃ s f,
    Exec.exec (State.step Sample.world) Sample.start (Sample.fuzzed 7) = some s ∧
    s.sub.fuzz = some f ∧ f.words = ((FuzzState.ofSeed (modeSeed 0#32)).draws 2).words ∧
    f.state1 ≠ 0 := by
  have hrun : (Exec.exec (State.step Sample.world) Sample.start (Sample.fuzzed 7)).any (fun s =>
      s.sub.fuzz.any fun f =>
        decide (f.words = ((FuzzState.ofSeed (modeSeed 0#32)).draws 2).words)) = true := by
    decide +kernel
  obtain ⟨s, hs, hrun⟩ := (Option.any_eq_true _ _).mp hrun
  obtain ⟨f, hf, hwords⟩ := (Option.any_eq_true _ _).mp hrun
  refine ⟨s, f, hs, hf, of_decide_eq_true hwords, ?_⟩
  exact (generator_never_degenerates.2.1 Sample.world Sample.config 4096#64 (fun _ => none)
    (Sample.fuzzed 7) s f hs hf).1

end Gth

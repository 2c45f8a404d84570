/-
  Machine words as vectors of bits.

  Three facts that programs which mix bits rest on:

  * a map built from shifts and exclusive or is linear over the field with two elements, so it is
    known by its values at the powers of two (`Linear.eq_of_basis`), and a matrix that undoes these
    values undoes the map (`Linear.injective_of_columns`);
  * `x ^ (x >> k)` loses nothing (`xor_ushiftRight_injective`);
  * or-ing a word with itself shifted by 1, 2, 4, … fills every place below its highest bit
    (`Smears`), which gives the least mask `2 ^ k - 1` that covers it; and a mask of `k` ones cuts
    the words of `w` bits into classes of `2 ^ (w - k)` (`card_masked`).
-/
import Mathlib

namespace Words

variable {w : Nat}

/-! ## Linear maps -/

/-- Additive for exclusive or. -/
def Linear (L : BitVec w → BitVec w) : Prop := ∀ x y, L (x ^^^ y) = L x ^^^ L y

namespace Linear
variable {L M : BitVec w → BitVec w}

theorem id : Linear (fun x : BitVec w => x) := fun _ _ => rfl

theorem xor (hL : Linear L) (hM : Linear M) : Linear fun x => L x ^^^ M x := by
  intro x y
  show L (x ^^^ y) ^^^ M (x ^^^ y) = L x ^^^ M x ^^^ (L y ^^^ M y)
  rw [hL, hM]
  ac_rfl

theorem shiftLeft (hL : Linear L) (k : Nat) : Linear fun x => L x <<< k := by
  intro x y
  show L (x ^^^ y) <<< k = L x <<< k ^^^ L y <<< k
  rw [hL, BitVec.shiftLeft_xor_distrib]

theorem ushiftRight (hL : Linear L) (k : Nat) : Linear fun x => L x >>> k := by
  intro x y
  show L (x ^^^ y) >>> k = L x >>> k ^^^ L y >>> k
  rw [hL, BitVec.ushiftRight_xor_distrib]

theorem comp (hM : Linear M) (hL : Linear L) : Linear fun x => M (L x) := by
  intro x y
  show M (L (x ^^^ y)) = M (L x) ^^^ M (L y)
  rw [hL, hM]

theorem zero (hL : Linear L) : L 0 = 0 := by
  have h := hL 0 0
  rw [BitVec.xor_self, BitVec.xor_self] at h
  exact h

/-- The highest bit of a word is taken off by exclusive or; induction on the bits that are left. -/
theorem eq_of_basis (hL : Linear L) (hM : Linear M)
    (h : ∀ i < w, L (BitVec.twoPow w i) = M (BitVec.twoPow w i)) (x : BitVec w) : L x = M x := by
  have hbits : ∀ n, n ≤ w → ∀ x : BitVec w, (∀ i, n ≤ i → x.getLsbD i = false) → L x = M x := by
    intro n
    induction n with
    | zero =>
      intro _ x hx
      have hzero : x = 0 := by
        apply BitVec.eq_of_getLsbD_eq
        intro i _
        rw [hx i (Nat.zero_le i), BitVec.ofNat_eq_ofNat, BitVec.getLsbD_zero]
      rw [hzero, hL.zero, hM.zero]
    | succ n ih =>
      intro hn x hx
      have hlow : ∀ y : BitVec w, y.getLsbD n = false → (∀ i, n + 1 ≤ i → y.getLsbD i = false) →
          L y = M y := by
        intro y hyn hy
        apply ih (by omega)
        intro i hi
        rcases Nat.eq_or_lt_of_le hi with rfl | hlt
        · exact hyn
        · exact hy i hlt
      cases hbit : x.getLsbD n with
      | false => exact hlow x hbit hx
      | true =>
        have hrest : L (x ^^^ BitVec.twoPow w n) = M (x ^^^ BitVec.twoPow w n) := by
          apply hlow
          · rw [BitVec.getLsbD_xor, BitVec.getLsbD_twoPow, hbit]
            simp
            omega
          · intro i hi
            rw [BitVec.getLsbD_xor, BitVec.getLsbD_twoPow, hx i hi]
            simp
            omega
        have hsplit : x = (x ^^^ BitVec.twoPow w n) ^^^ BitVec.twoPow w n := by
          rw [BitVec.xor_assoc, BitVec.xor_self, BitVec.xor_zero]
        rw [hsplit, hL, hM, hrest, h n (by omega)]
  exact hbits w (Nat.le_refl w) x fun i hi => BitVec.getLsbD_of_ge x i hi

end Linear

/-- The product of a matrix, given by the columns from number `i` on, with a word. -/
def combine : List (BitVec w) → Nat → BitVec w → BitVec w
  | [], _, _ => 0
  | c :: cs, i, x => (if x.getLsbD i then c else 0) ^^^ combine cs (i + 1) x

theorem linear_combine (cs : List (BitVec w)) : ∀ i, Linear (combine cs i) := by
  induction cs with
  | nil =>
    intro i x y
    exact (BitVec.xor_self).symm
  | cons c cs ih =>
    intro i x y
    have hhead : (if (x ^^^ y).getLsbD i then c else 0)
        = (if x.getLsbD i then c else 0) ^^^ (if y.getLsbD i then c else 0) := by
      rw [BitVec.getLsbD_xor]
      cases x.getLsbD i <;> cases y.getLsbD i <;> simp
    simp only [combine]
    rw [hhead, ih (i + 1) x y]
    ac_rfl

/-- **A matrix that undoes a linear map on the basis undoes it.** -/
theorem Linear.injective_of_columns {L : BitVec w → BitVec w} (hL : Linear L) (cs : List (BitVec w))
    (h : ∀ i < w, combine cs 0 (L (BitVec.twoPow w i)) = BitVec.twoPow w i) :
    Function.Injective L := by
  have hleft : Function.LeftInverse (combine cs 0) L :=
    fun x => (Linear.comp (linear_combine cs 0) hL).eq_of_basis .id h x
  exact hleft.injective

/-! ## One shift and exclusive or -/

/-- From the highest bit down. -/
theorem xor_ushiftRight_injective {k : Nat} (hk : 0 < k) :
    Function.Injective fun x : BitVec w => x ^^^ (x >>> k) := by
  intro x y h
  have hbit : ∀ n i, w ≤ i + n → x.getLsbD i = y.getLsbD i := by
    intro n
    induction n with
    | zero =>
      intro i hi
      rw [BitVec.getLsbD_of_ge x i hi, BitVec.getLsbD_of_ge y i hi]
    | succ n ih =>
      intro i hi
      have hi' := congrArg (fun z : BitVec w => z.getLsbD i) h
      simp only [BitVec.getLsbD_xor, BitVec.getLsbD_ushiftRight] at hi'
      rw [ih (k + i) (by omega)] at hi'
      exact Bool.xor_left_inj.mp hi'
  exact BitVec.eq_of_getLsbD_eq fun i _ => hbit w i (by omega)

/-! ## Masks -/

/-- Bit `i` of `y` is set iff one of the `n` bits of `x` from `i` on is. -/
def Smears (x y : BitVec w) (n : Nat) : Prop :=
  ∀ i, y.getLsbD i = true ↔ ∃ j < n, x.getLsbD (i + j) = true

section
variable {x y : BitVec w} {n k : Nat}

theorem Smears.refl (x : BitVec w) : Smears x x 1 := by
  intro i
  constructor
  · intro h
    exact ⟨0, Nat.one_pos, h⟩
  · rintro ⟨j, hj, h⟩
    rwa [show j = 0 by omega] at h

/-- Each step doubles the reach. -/
theorem Smears.step (h : Smears x y n) : Smears x (y ||| (y >>> n)) (n + n) := by
  intro i
  rw [BitVec.getLsbD_or, BitVec.getLsbD_ushiftRight, Bool.or_eq_true, h i, h (n + i)]
  constructor
  · rintro (⟨j, hj, hx⟩ | ⟨j, hj, hx⟩)
    · exact ⟨j, by omega, hx⟩
    · exact ⟨n + j, by omega, by rwa [show i + (n + j) = n + i + j by omega]⟩
  · rintro ⟨j, hj, hx⟩
    by_cases hjn : j < n
    · exact Or.inl ⟨j, hjn, hx⟩
    · exact Or.inr ⟨j - n, by omega, by rwa [show n + i + (j - n) = i + j by omega]⟩

/-- **A reach of the whole word gives the mask of the bits of `x`.** -/
theorem Smears.toNat_eq (h : Smears x y n) (hn : w ≤ n) : y.toNat = 2 ^ x.toNat.size - 1 := by
  apply Nat.eq_of_testBit_eq
  intro i
  rw [Nat.testBit_two_pow_sub_one, Bool.eq_iff_iff, decide_eq_true_iff, Nat.lt_size]
  refine (h i).trans ⟨?_, ?_⟩
  · rintro ⟨j, -, hx⟩
    exact (Nat.pow_le_pow_right (by decide) (Nat.le_add_right i j)).trans
      (Nat.ge_two_pow_of_testBit hx)
  · intro hle
    obtain ⟨m, hm, hx⟩ := Nat.exists_ge_and_testBit_of_ge_two_pow hle
    have hmw : m < w := by
      by_contra hge
      rw [show x.toNat.testBit m = x.getLsbD m from rfl, BitVec.getLsbD_of_ge x m (by omega)] at hx
      exact Bool.false_ne_true hx
    refine ⟨m - i, by omega, ?_⟩
    rwa [show i + (m - i) = m by omega]

theorem toNat_and_mask {mask : BitVec w} (hmask : mask.toNat = 2 ^ k - 1) (x : BitVec w) :
    (x &&& mask).toNat = x.toNat % 2 ^ k := by
  rw [BitVec.toNat_and, hmask, Nat.and_two_pow_sub_one_eq_mod]

/-- **The words that a mask of `k` ones takes to `v`**, one for each choice of the other bits. -/
theorem card_masked {mask v : BitVec w} (hk : k ≤ w) (hmask : mask.toNat = 2 ^ k - 1)
    (hv : v.toNat < 2 ^ k) :
    (Finset.univ.filter fun x : BitVec w => x &&& mask = v).card = 2 ^ (w - k) := by
  have hpow : 2 ^ w = 2 ^ k * 2 ^ (w - k) := by rw [← Nat.pow_add, Nat.add_sub_cancel' hk]
  have hfit : ∀ q < 2 ^ (w - k), 2 ^ k * q + v.toNat < 2 ^ w := by
    intro q hq
    have hle : 2 ^ k * (q + 1) ≤ 2 ^ k * 2 ^ (w - k) := Nat.mul_le_mul_left _ hq
    rw [Nat.mul_succ] at hle
    omega
  rw [← Finset.card_range (2 ^ (w - k))]
  refine Finset.card_nbij' (fun x => x.toNat / 2 ^ k) (fun q => BitVec.ofNat w (2 ^ k * q + v.toNat))
    ?_ ?_ ?_ ?_
  · intro x _
    have hx := x.isLt
    rw [hpow] at hx
    exact Finset.mem_coe.mpr (Finset.mem_range.mpr (Nat.div_lt_of_lt_mul hx))
  · intro q hq
    have hq := hfit q (Finset.mem_range.mp (Finset.mem_coe.mp hq))
    refine Finset.mem_coe.mpr (Finset.mem_filter.mpr ⟨Finset.mem_univ _, ?_⟩)
    apply BitVec.eq_of_toNat_eq
    rw [toNat_and_mask hmask, BitVec.toNat_ofNat, Nat.mod_eq_of_lt hq, Nat.mul_add_mod,
      Nat.mod_eq_of_lt hv]
  · intro x hx
    have hx := (Finset.mem_filter.mp (Finset.mem_coe.mp hx)).2
    have hmod : v.toNat = x.toNat % 2 ^ k := by rw [← hx, toNat_and_mask hmask]
    apply BitVec.eq_of_toNat_eq
    rw [BitVec.toNat_ofNat, hmod, Nat.div_add_mod, Nat.mod_eq_of_lt x.isLt]
  · intro q hq
    have hq := hfit q (Finset.mem_range.mp (Finset.mem_coe.mp hq))
    show (BitVec.ofNat w (2 ^ k * q + v.toNat)).toNat / 2 ^ k = q
    rw [BitVec.toNat_ofNat, Nat.mod_eq_of_lt hq, Nat.mul_add_div (Nat.two_pow_pos k),
      Nat.div_eq_of_lt hv, Nat.add_zero]

theorem card_lt (m : BitVec w) : (Finset.univ.filter fun v : BitVec w => v < m).card = m.toNat := by
  have hfit : ∀ n < m.toNat, n < 2 ^ w := fun n hn => hn.trans m.isLt
  rw [← Finset.card_range m.toNat]
  refine Finset.card_nbij' BitVec.toNat (BitVec.ofNat w) ?_ ?_ ?_ ?_
  · intro v hv
    have hv := (Finset.mem_filter.mp (Finset.mem_coe.mp hv)).2
    exact Finset.mem_coe.mpr (Finset.mem_range.mpr hv)
  · intro n hn
    have hn := Finset.mem_range.mp (Finset.mem_coe.mp hn)
    refine Finset.mem_coe.mpr (Finset.mem_filter.mpr ⟨Finset.mem_univ _, ?_⟩)
    rw [BitVec.lt_def, BitVec.toNat_ofNat, Nat.mod_eq_of_lt (hfit n hn)]
    exact hn
  · intro v _
    exact BitVec.ofNat_toNat w v |>.trans (BitVec.setWidth_eq v)
  · intro n hn
    have hn := Finset.mem_range.mp (Finset.mem_coe.mp hn)
    exact (BitVec.toNat_ofNat n w).trans (Nat.mod_eq_of_lt (hfit n hn))

end
end Words

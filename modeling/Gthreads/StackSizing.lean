/-
  Stack sizes.

  `gth_stack_allocate` rounds the request up to pages and adds one, all on `size_t`, and looks for
  wraps by comparing what came out.  For every page size that is a power of two these comparisons
  find exactly the requests whose exact total does not fit (`stack_sizing_exact`).

  Two functions check the same number: `gth_config_is_valid` wants at least 16 KiB,
  `gth_stack_allocate` also at most 64 MiB.  For the page sizes there are no total below 64 MiB
  wraps, so the upper bound is the whole difference (`accepted_config_creates_iff`).
-/
import Gthreads.Runs
import Gthreads.Table

namespace Gth

/-! ## Rounding up to pages -/

section
variable {value alignment : BitVec 64} {k : Nat}

theorem toNat_sub_one (h : alignment.toNat = 2 ^ k) : (alignment - 1).toNat = 2 ^ k - 1 := by
  have hpos : 0 < 2 ^ k := Nat.two_pow_pos k
  have hlt := alignment.isLt
  rw [BitVec.toNat_sub, h]
  rw [h] at hlt
  show (2 ^ 64 - 1 + 2 ^ k) % 2 ^ 64 = 2 ^ k - 1
  omega

/-- `gth_is_power_of_two` accepts powers of two. -/
theorem isPowerOfTwo_of_toNat (h : alignment.toNat = 2 ^ k) : isPowerOfTwo alignment = true := by
  have hpos : 0 < 2 ^ k := Nat.two_pow_pos k
  have hand : alignment &&& (alignment - 1) = 0 := by
    apply BitVec.eq_of_toNat_eq
    rw [BitVec.toNat_and, toNat_sub_one h, h, Nat.and_two_pow_sub_one_eq_mod, Nat.mod_self]
    rfl
  have hne : alignment ≠ 0 := by
    rintro rfl
    exact absurd h (Nat.ne_of_lt hpos)
  unfold isPowerOfTwo
  rw [hand, Bool.and_eq_true]
  exact ⟨bne_iff_ne.mpr hne, rfl⟩

/-- Clearing bits subtracts them. -/
theorem toNat_and_not (x m : BitVec 64) : (x &&& ~~~m).toNat = x.toNat - (x &&& m).toNat := by
  have hsplit : (x &&& ~~~m) + (x &&& m) = x := by
    rw [BitVec.add_eq_or_of_and_eq_zero]
    · ext i
      simp only [BitVec.getElem_or, BitVec.getElem_and, BitVec.getElem_not]
      cases x[i] <;> cases m[i] <;> rfl
    · ext i
      simp only [BitVec.getElem_and, BitVec.getElem_not, BitVec.getElem_zero]
      cases x[i] <;> cases m[i] <;> rfl
  have hle : (x &&& m).toNat ≤ x.toNat := by
    rw [BitVec.toNat_and]
    exact Nat.and_le_left
  rw [show x &&& ~~~m = x - (x &&& m) from BitVec.eq_sub_iff_add_eq.mpr hsplit,
    BitVec.toNat_sub_of_le hle]

/-- **`gth_align_up` rounds down what it has added to.** -/
theorem toNat_alignUp (h : alignment.toNat = 2 ^ k) :
    (alignUp value alignment).toNat = (value.toNat + (2 ^ k - 1)) % 2 ^ 64
      - (value.toNat + (2 ^ k - 1)) % 2 ^ 64 % 2 ^ k := by
  have hadd : (value + alignment - 1).toNat = (value.toNat + (2 ^ k - 1)) % 2 ^ 64 := by
    rw [add_sub_assoc, BitVec.toNat_add, toNat_sub_one h]
  rw [alignUp, toNat_and_not, BitVec.toNat_and, toNat_sub_one h, Nat.and_two_pow_sub_one_eq_mod, hadd]

theorem ceil_eq (n k : Nat) :
    n ⌈/⌉ 2 ^ k * 2 ^ k = n + (2 ^ k - 1) - (n + (2 ^ k - 1)) % 2 ^ k := by
  have hpos : 1 ≤ 2 ^ k := Nat.two_pow_pos k
  have hdiv := Nat.div_add_mod (n + (2 ^ k - 1)) (2 ^ k)
  rw [Nat.mul_comm] at hdiv
  rw [Nat.ceilDiv_eq_add_pred_div, Nat.add_sub_assoc hpos]
  exact Nat.eq_sub_of_add_eq hdiv

theorem ceil_bounds (n k : Nat) : n ≤ n ⌈/⌉ 2 ^ k * 2 ^ k ∧ n ⌈/⌉ 2 ^ k * 2 ^ k < n + 2 ^ k := by
  have hpos : 0 < 2 ^ k := Nat.two_pow_pos k
  have hmod := Nat.mod_lt (n + (2 ^ k - 1)) hpos
  rw [ceil_eq]
  omega

/-- **Without a wrap the result is the least multiple.** -/
theorem alignUp_exact (value : BitVec 64) (h : alignment.toNat = 2 ^ k)
    (hfit : value.toNat + 2 ^ k ≤ 2 ^ 64) :
    (alignUp value alignment).toNat = value.toNat ⌈/⌉ 2 ^ k * 2 ^ k := by
  have hpos : 0 < 2 ^ k := Nat.two_pow_pos k
  rw [toNat_alignUp h, Nat.mod_eq_of_lt (by omega), ceil_eq]

theorem ceil_least {n m k : Nat} (hn : n ≤ m) (hm : 2 ^ k ∣ m) : n ⌈/⌉ 2 ^ k * 2 ^ k ≤ m := by
  obtain ⟨q, rfl⟩ := hm
  rw [Nat.mul_comm]
  exact Nat.mul_le_mul_left _ ((ceilDiv_le_iff_le_mul (Nat.two_pow_pos k)).mpr hn)

end

/-! ## What is admitted -/

section
variable {pageSize size : BitVec 64} {k : Nat}

theorem page_accepted (h : pageSize.toNat = 2 ^ k) :
    ¬(pageSize = 0 ∨ isPowerOfTwo pageSize = false) := by
  rintro (rfl | hnot)
  · exact absurd h (Nat.ne_of_lt (Nat.two_pow_pos k))
  · rw [isPowerOfTwo_of_toNat h] at hnot
    cases hnot

theorem page_le (h : pageSize.toNat = 2 ^ k) : 2 ^ k ≤ 2 ^ 63 := by
  have hlt := pageSize.isLt
  rw [h] at hlt
  have hk : k < 64 := (Nat.pow_lt_pow_iff_right (by decide)).mp hlt
  exact Nat.pow_le_pow_right (by decide) (by omega)

/-- The sizes that `gth_stack_allocate` is to admit, in exact arithmetic. -/
def Fits (size k : Nat) : Prop :=
  16 * 1024 ≤ size ∧ size ≤ 64 * 1024 * 1024 ∧ size ⌈/⌉ 2 ^ k * 2 ^ k + 2 ^ k < 2 ^ 64

instance (size k : Nat) : Decidable (Fits size k) := inferInstanceAs (Decidable (_ ∧ _ ∧ _))

/-- Up to 64 MiB the rounding does not wrap, whatever the page size. -/
theorem toNat_alignUp_page (h : pageSize.toNat = 2 ^ k) (hmax : size.toNat ≤ 64 * 1024 * 1024) :
    (alignUp size pageSize).toNat = size.toNat ⌈/⌉ 2 ^ k * 2 ^ k := by
  have hpow := page_le h
  exact alignUp_exact size h (by omega)

theorem toNat_total (h : pageSize.toNat = 2 ^ k) (hfits : Fits size.toNat k) :
    (alignUp size pageSize + pageSize).toNat = size.toNat ⌈/⌉ 2 ^ k * 2 ^ k + 2 ^ k := by
  rw [BitVec.toNat_add, toNat_alignUp_page h hfits.2.1, h]
  exact Nat.mod_eq_of_lt hfits.2.2

/-- **A size that fits gets as far as `mmap`.** -/
theorem stackAllocate_fits (h : pageSize.toNat = 2 ^ k) (env : MapEnv)
    (hfits : Fits size.toNat k) :
    stackAllocate pageSize env size = env.mmap.elim (.enomem, {}) fun memory =>
      if env.mprotectOk = false then (.einternal, {})
      else (.ok,
        { memory := memory, totalSize := alignUp size pageSize + pageSize,
          stackSize := alignUp size pageSize, guardPage := memory,
          stackTop := memory + (alignUp size pageSize + pageSize) }) := by
  have haligned := toNat_alignUp_page h hfits.2.1
  have hbounds := ceil_bounds size.toNat k
  have htotal := toNat_total h hfits
  have hrange : ¬(size < 16 * 1024 ∨ maxStackSize < size) := by
    rintro (hlt | hgt)
    · exact absurd hlt (Nat.not_lt.mpr hfits.1)
    · exact absurd hgt (Nat.not_lt.mpr hfits.2.1)
  have hround : ¬ alignUp size pageSize < size := by
    rw [BitVec.lt_def]
    omega
  have hsum : ¬ alignUp size pageSize + pageSize < alignUp size pageSize := by
    rw [BitVec.lt_def]
    omega
  unfold stackAllocate
  rw [if_neg (page_accepted h), if_neg hrange]
  dsimp only
  rw [if_neg hround, if_neg hsum]
  cases env.mmap <;> rfl

/-- **The size checks are complete and reject nothing else.** -/
theorem stackAllocate_einval_iff (h : pageSize.toNat = 2 ^ k) (env : MapEnv) :
    (stackAllocate pageSize env size).1 = .einval ↔ ¬ Fits size.toNat k := by
  constructor
  · intro hst hfits
    rw [stackAllocate_fits h env hfits] at hst
    cases hmap : env.mmap with
    | none =>
      rw [hmap] at hst
      cases hst
    | some memory =>
      rw [hmap] at hst
      cases hok : env.mprotectOk with
      | false =>
        rw [hok] at hst
        cases hst
      | true =>
        rw [hok] at hst
        cases hst
  · intro hnot
    unfold stackAllocate
    rw [if_neg (page_accepted h)]
    by_cases hrange : size < 16 * 1024 ∨ maxStackSize < size
    · rw [if_pos hrange]
    · rw [if_neg hrange]
      obtain ⟨hlow, hhigh⟩ := not_or.mp hrange
      have hmin : 16 * 1024 ≤ size.toNat := Nat.le_of_not_lt hlow
      have hmax : size.toNat ≤ 64 * 1024 * 1024 := Nat.le_of_not_lt hhigh
      dsimp only
      by_cases hround : alignUp size pageSize < size
      · rw [if_pos hround]
      · -- the exact sum is at least `2 ^ 64`, so the computed one has wrapped
        have haligned := toNat_alignUp_page h hmax
        have hpow := page_le h
        have hbounds := ceil_bounds size.toNat k
        have hwrap : alignUp size pageSize + pageSize < alignUp size pageSize := by
          rw [BitVec.lt_def, BitVec.toNat_add, haligned, h]
          unfold Fits at hnot
          omega
        rw [if_neg hround, if_pos hwrap]

end

/-- **Stack sizing is exact and its overflow checks are complete.**  For every request and every
    page size that is a power of two: the checks pass iff the request is between 16 KiB and 64 MiB
    and the exact total is below `2 ^ 64`; then the aligned size is the least multiple of the page
    size that is not below the request, the total is the exact sum, and in a block of that size that
    is aligned to pages of at least 16 bytes and does not wrap, the top of the stack is 16-byte
    aligned with at least the requested bytes between it and the guard page. -/
theorem stack_sizing_exact (size pageSize : BitVec 64) (k : Nat) (hpage : pageSize.toNat = 2 ^ k)
    (env : MapEnv) :
    ((stackAllocate pageSize env size).1 ≠ .einval ↔
      16384 ≤ size.toNat ∧ size.toNat ≤ 64 * 1024 * 1024 ∧
        size.toNat ⌈/⌉ 2 ^ k * 2 ^ k + 2 ^ k < 2 ^ 64) ∧
    ((stackAllocate pageSize env size).1 ≠ .einval →
      (alignUp size pageSize).toNat = size.toNat ⌈/⌉ 2 ^ k * 2 ^ k ∧
      size.toNat ≤ (alignUp size pageSize).toNat ∧ 2 ^ k ∣ (alignUp size pageSize).toNat ∧
      (∀ m, size.toNat ≤ m → 2 ^ k ∣ m → (alignUp size pageSize).toNat ≤ m) ∧
      (alignUp size pageSize + pageSize).toNat = (alignUp size pageSize).toNat + pageSize.toNat ∧
      ∀ memory, env.mmap = some memory → env.mprotectOk = true →
        ∃ stack, stackAllocate pageSize env size = (.ok, stack) ∧ stack.memory = memory ∧
          stack.stackSize = alignUp size pageSize ∧
          stack.totalSize = alignUp size pageSize + pageSize ∧
          (2 ^ k ∣ memory.toNat → memory.toNat + stack.totalSize.toNat ≤ 2 ^ 64 → 16 ≤ 2 ^ k →
            16 ∣ stack.stackTop.toNat ∧
            size.toNat ≤ (stack.stackTop - (stack.guardPage + pageSize)).toNat ∧
            (memory.toNat + stack.totalSize.toNat < 2 ^ 64 →
              stack.guardPage.toNat + pageSize.toNat + size.toNat ≤ stack.stackTop.toNat))) := by
  have hiff : (stackAllocate pageSize env size).1 ≠ .einval ↔ Fits size.toNat k :=
    (not_congr (stackAllocate_einval_iff hpage env)).trans not_not
  refine ⟨hiff, fun hadmit => ?_⟩
  have hfits := hiff.mp hadmit
  have haligned := toNat_alignUp_page hpage hfits.2.1
  have htotal := toNat_total hpage hfits
  have hbounds := ceil_bounds size.toNat k
  refine ⟨haligned, by omega, ?_, fun m hm hdvd => ?_, by omega, fun memory hmap hprot => ?_⟩
  · rw [haligned]
    exact Nat.dvd_mul_left _ _
  · rw [haligned]
    exact ceil_least hm hdvd
  · have heq := stackAllocate_fits hpage env hfits
    rw [hmap, hprot] at heq
    refine ⟨_, heq, rfl, rfl, rfl, fun hmem hblock h16 => ?_⟩
    dsimp only at hblock ⊢
    rw [htotal] at hblock
    have htop : (memory + (alignUp size pageSize + pageSize)).toNat
        = (memory.toNat + (size.toNat ⌈/⌉ 2 ^ k * 2 ^ k + 2 ^ k)) % 2 ^ 64 := by
      rw [BitVec.toNat_add, htotal]
    refine ⟨?_, ?_, fun hlt => ?_⟩
    · -- `2 ^ k` is a multiple of 16, and so are `2 ^ 64` and all parts of the sum
      have hk : 4 ≤ k :=
        (Nat.pow_le_pow_iff_right (show 1 < 2 by decide)).mp (show 2 ^ 4 ≤ 2 ^ k from h16)
      have hdvd : 16 ∣ 2 ^ k := Nat.pow_dvd_pow 2 hk
      rw [htop]
      refine (Nat.dvd_mod_iff (by decide)).mpr ?_
      exact Nat.dvd_add (hdvd.trans hmem) (Nat.dvd_add (Dvd.dvd.mul_left hdvd _) hdvd)
    · have hdiff : memory + (alignUp size pageSize + pageSize) - (memory + pageSize)
          = alignUp size pageSize := by
        rw [add_sub_add_left_eq_sub, add_sub_cancel_right]
      rw [hdiff, haligned]
      exact hbounds.1
    · rw [htotal] at hlt
      rw [htop, Nat.mod_eq_of_lt hlt, hpage]
      omega

theorem stack_sizing_exact_page : ∃ stack,
    stackAllocate 4096#64 ⟨some 65536#64, true⟩ 20000#64 = (.ok, stack) ∧
      16 ∣ stack.stackTop.toNat ∧
      20000 ≤ (stack.stackTop - (stack.guardPage + 4096#64)).toNat := by
  obtain ⟨hiff, hexact⟩ := stack_sizing_exact 20000#64 4096#64 12 rfl ⟨some 65536#64, true⟩
  obtain ⟨-, -, -, -, -, hstack⟩ := hexact (hiff.mpr (by decide))
  obtain ⟨stack, hok, -, -, htotal, htop⟩ := hstack 65536#64 rfl rfl
  obtain ⟨haligned, hroom, -⟩ := htop (by decide) (by rw [htotal]; decide) (by decide)
  exact ⟨stack, hok, haligned, hroom⟩

/-- `gth_runtime_init` has checked the lower bound. -/
theorem runtimeInit_ok {S : State} {config : Config} (h : (runtimeInit S (some config)).1 = .ok) :
    16 * 1024 ≤ config.stackSizeBytes.toNat := by
  unfold runtimeInit at h
  dsimp only at h
  by_cases hvalid : configIsValid config = false
  · rw [if_pos hvalid] at h
    cases h
  · rw [configIsValid, Bool.not_eq_false, Bool.and_eq_true] at hvalid
    exact of_decide_eq_true hvalid.1

/-- `gth_thread_create` with its arguments and a free slot answers what `gth_stack_allocate` does. -/
theorem threadCreate_status {s : Core} {i : Slot} (hinit : s.initialized = true)
    (hfree : (s.threads i).state = .empty) {fn : Nat} (hfn : fn ≠ 0) (attr : Option Nat) (arg : Nat)
    (env : MapEnv) : (s.threadCreate true attr fn arg env).1.status
      = (stackAllocate s.pageSize env s.config.stackSizeBytes).1 := by
  have hslot : (allocThreadSlot s.threads).isSome = true := by
    refine List.find?_isSome.mpr ⟨i, List.mem_finRange i, ?_⟩
    exact decide_eq_true hfree
  obtain ⟨j, hj⟩ := Option.isSome_iff_exists.mp hslot
  have hargs : ¬(true = false ∨ fn = 0) := by
    rintro (h | h)
    · cases h
    · exact hfn h
  unfold Core.threadCreate
  rw [if_neg (by rw [hinit]; decide), if_neg hargs, hj]
  dsimp only
  generalize stackAllocate s.pageSize env s.config.stackSizeBytes = alloc
  obtain ⟨status, stack⟩ := alloc
  cases status <;> rfl

/-- **When an accepted configuration can create threads**: exactly if its stacks are at most 64 MiB. -/
theorem accepted_config_creates_iff (S : State) (config : Config)
    (haccept : (runtimeInit S (some config)).1 = .ok) (s : Core) (hinit : s.initialized = true)
    (hconfig : s.config = config) (k : Nat) (hk : k ≤ 16) (hpage : s.pageSize.toNat = 2 ^ k)
    (i : Slot) (hfree : (s.threads i).state = .empty) (fn : Nat) (hfn : fn ≠ 0)
    (attr : Option Nat) (arg : Nat) (env : MapEnv) :
    (s.threadCreate true attr fn arg env).1.status ≠ .einval ↔
      config.stackSizeBytes.toNat ≤ 64 * 1024 * 1024 := by
  rw [threadCreate_status hinit hfree hfn, hconfig]
  have hmin := runtimeInit_ok haccept
  have hsmall : (2 : Nat) ^ k ≤ 2 ^ 16 := Nat.pow_le_pow_right (by decide) hk
  have hbounds := ceil_bounds config.stackSizeBytes.toNat k
  rw [Ne, stackAllocate_einval_iff hpage, not_not]
  constructor
  · intro hfits
    exact hfits.2.1
  · intro hmax
    exact ⟨hmin, hmax, by omega⟩

theorem accepted_config_creates_small :
    (Sample.start.core.threadCreate true none 1 0 ⟨some 65536#64, true⟩).1.status ≠ .einval :=
  (accepted_config_creates_iff (State.loaded Sample.config.1 4096#64 fun _ => none) Sample.config.1
    rfl Sample.start.core rfl rfl 12 (by decide) rfl 0 rfl 1 (by decide) none 0
    ⟨some 65536#64, true⟩).mpr (by decide)

/-- One byte above 64 MiB: `gth_runtime_init` accepts it, `gth_thread_create` does not. -/
theorem accepted_config_cannot_create :
    let config : Config := ⟨67108865#64, .rr, 1, 0#32⟩
    let S := runtimeInit (State.loaded config 4096#64 fun _ => none) (some config)
    S.1 = .ok ∧ (∀ i, (S.2.core.threads i).state = .empty) ∧
      (S.2.core.threadCreate true none 1 0 ⟨some 65536#64, true⟩).1.status = .einval := by
  decide +kernel

end Gth

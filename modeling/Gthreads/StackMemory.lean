/-
  Stacks in memory.

  A `Computer` is a `Processor` with a memory.  The code of each stack may write what it likes; a
  label carries, with the registers, the memory that the code segment leaves.  `gth_ctx_make` stores
  the arguments of the trampoline at the top of a new stack, and when the thread is dispatched for
  the first time `gth_ctx_trampoline` loads them from there.

  What is assumed is in `Computer.Sound`: `mmap` answers with pages that are in no stack, a thread
  keeps its stack pointer in its own stack, and nobody writes into a stack that has not been used
  yet.  Then the stacks never overlap, every thread goes on in its own stack, and the trampoline
  calls `gth_context_thread_trampoline` with the thread's own slot (`stacks_isolated`).
-/
import Gthreads.Lib.ByteMemory
import Gthreads.Slots

namespace Gth

open ByteMemory

/-! ## The memory of a stack -/

namespace StackAllocation

/-- The bytes of the mapping, with the guard page. -/
def Covers (stack : StackAllocation) (y : BitVec 64) : Prop :=
  Within stack.memory stack.totalSize.toNat y

/-- The bytes behind the guard page. -/
def Usable (pageSize : BitVec 64) (stack : StackAllocation) (y : BitVec 64) : Prop :=
  pageSize.toNat ≤ (y - stack.memory).toNat ∧ stack.Covers y

/-- What is known of a stack that `gth_stack_allocate` has made. -/
structure LaidOut (pageSize : BitVec 64) (stack : StackAllocation) : Prop where
  top : stack.stackTop = stack.memory + stack.totalSize
  room : pageSize.toNat + 16 ≤ stack.totalSize.toNat
  aligned : stack.stackTop.toNat % 16 = 0

end StackAllocation

/-- The stores of `gth_ctx_make` into the new stack. -/
def ctxMakeStores (mem : Memory) (stackTop entry slotIndex : BitVec 64) : Memory :=
  let rax := stackTop - 16
  let mem := store64 mem rax entry
  store64 mem (rax + 8) slotIndex

/-- The loads of `gth_ctx_trampoline`: the function that it calls, and the argument. -/
def ctxTrampoline (mem : Memory) (rsp : BitVec 64) : BitVec 64 × BitVec 64 :=
  (load64 mem rsp, load64 mem (rsp + 8))

section
variable {mem mem' : Memory} {a y pageSize : BitVec 64} {stack : StackAllocation}

/-- The two words of the trampoline. -/
theorem within_words (h : Within a 8 y ∨ Within (a + 8) 8 y) : Within a 16 y := by
  rcases h with h | h
  · exact Nat.lt_trans h (by decide)
  · have h : Within (a + BitVec.ofNat 64 8) 8 y := h
    exact h.of_inside (by decide) (by decide)

theorem words_apart (h : Within a 8 y) : ¬ Within (a + 8) 8 y := by
  unfold Within at h ⊢
  have hsub : y - (a + 8) = y - a - 8 := (sub_sub y a 8).symm
  rw [hsub]
  bv_omega

theorem ctxTrampoline_congr (h : ∀ y, Within a 16 y → mem y = mem' y) :
    ctxTrampoline mem a = ctxTrampoline mem' a := by
  unfold ctxTrampoline
  rw [load64_congr fun y hy => h y (within_words (Or.inl hy)),
    load64_congr fun y hy => h y (within_words (Or.inr hy))]

/-- **The trampoline finds what `gth_ctx_make` has stored.** -/
theorem ctxTrampoline_ctxMakeStores (mem : Memory) (stackTop entry slotIndex : BitVec 64) :
    ctxTrampoline (ctxMakeStores mem stackTop entry slotIndex) (stackTop - 16)
      = (entry, slotIndex) := by
  unfold ctxTrampoline ctxMakeStores
  dsimp only
  rw [load64_store64, load64_congr fun y hy => store64_of_not_within (words_apart hy),
    load64_store64]

theorem ctxMakeStores_of_not_within {stackTop entry slotIndex : BitVec 64}
    (h : ¬ Within (stackTop - 16) 16 y) :
    ctxMakeStores mem stackTop entry slotIndex y = mem y := by
  unfold ctxMakeStores
  rw [store64_of_not_within fun hy => h (within_words (Or.inr hy)),
    store64_of_not_within fun hy => h (within_words (Or.inl hy))]

namespace StackAllocation.LaidOut

theorem sub_sixteen (h : stack.LaidOut pageSize) :
    stack.stackTop - 16 = stack.memory + BitVec.ofNat 64 (stack.totalSize.toNat - 16) := by
  have hroom := h.room
  rw [h.top]
  bv_omega

/-- The arguments of the trampoline are in the stack. -/
theorem covers (h : stack.LaidOut pageSize) (hy : Within (stack.stackTop - 16) 16 y) :
    stack.Covers y := by
  have hroom := h.room
  rw [h.sub_sixteen] at hy
  exact hy.of_inside (by omega) stack.totalSize.isLt

/-- The first stack pointer. -/
theorem usable (h : stack.LaidOut pageSize) : stack.Usable pageSize (stack.stackTop - 16) := by
  have hroom := h.room
  have hlt := stack.totalSize.isLt
  unfold Usable Covers Within
  rw [h.sub_sixteen, toNat_offset _ (by omega)]
  omega

theorem rsp_aligned (h : stack.LaidOut pageSize) : (stack.stackTop - 16).toNat % 16 = 0 := by
  have haligned := h.aligned
  bv_omega

end StackAllocation.LaidOut

end

/-- A stack that could be allocated at a page. -/
theorem laidOut_stackAt {pageSize size memory : BitVec 64} {env : MapEnv} {k : Nat}
    (hpage : pageSize.toNat = 2 ^ k) (hk : 4 ≤ k) (hmem : memory.toNat % pageSize.toNat = 0)
    (hok : (stackAllocate pageSize env size).1 = .ok) :
    (stackAt pageSize size memory).LaidOut pageSize := by
  have hfits : Fits size.toNat k := by
    by_contra hnot
    cases hok.symm.trans ((stackAllocate_einval_iff hpage env).mpr hnot)
  have htotal := toNat_total hpage hfits
  have hbounds := ceil_bounds size.toNat k
  have hlow := hfits.1
  have hsixteen : (16 : Nat) ∣ 2 ^ k := Nat.pow_dvd_pow 2 hk
  refine ⟨rfl, ?_, ?_⟩
  · show pageSize.toNat + 16 ≤ (alignUp size pageSize + pageSize).toNat
    rw [htotal, hpage]
    omega
  · show (memory + (alignUp size pageSize + pageSize)).toNat % 16 = 0
    have hbase : 16 ∣ memory.toNat := by
      rw [hpage] at hmem
      exact hsixteen.trans (Nat.dvd_of_mod_eq_zero hmem)
    have hsum : 16 ∣ (alignUp size pageSize + pageSize).toNat := by
      rw [htotal]
      exact (hsixteen.trans (Nat.dvd_mul_left _ _)).add hsixteen
    rw [BitVec.toNat_add]
    omega

/-! ## The slots -/

namespace Core

/-- The thread of slot `j` has not run yet. -/
def Unstarted (s : Core) (j : Slot) : Prop :=
  (s.threads j).state = .ready ∧ (s.threads j).ctx = some ⟨.green j, .entry⟩

theorem Unstarted.ne_empty {s : Core} {j : Slot} (h : s.Unstarted j) :
    (s.threads j).state ≠ .empty := by
  rw [h.1]
  decide

/-- The slot that a code segment has filled. -/
def filled (s t : Core) : Option Slot :=
  (List.finRange 128).find? fun i =>
    decide ((s.threads i).state = .empty) && !decide ((t.threads i).state = .empty)

theorem filled_some {s t : Core} {i : Slot} (h : filled s t = some i) :
    (s.threads i).state = .empty ∧ (t.threads i).state ≠ .empty := by
  have hi := List.find?_some h
  simpa using hi

theorem filled_ne_none {s t : Core} {j : Slot} (hs : (s.threads j).state = .empty)
    (ht : (t.threads j).state ≠ .empty) : filled s t ≠ none := by
  intro h
  have hj := List.find?_eq_none.mp h j (List.mem_finRange j)
  simp [hs, ht] at hj

end Core

/-! ## The contexts of threads off the CPU -/

namespace Processor
variable {p : Processor} {l : Label × Registers} {t : State}

theorem prepare_threadCtx {r : Registers} {c : Core} {j : Slot}
    (h : (c.threads j).state = .empty ↔ (p.state.core.threads j).state = .empty) :
    (p.prepare r c).threadCtx j = p.threadCtx j := by
  unfold prepare
  by_cases hj : (p.state.core.threads j).state = .empty <;> simp [h, hj]

theorem prepare_threadCtx_filled {r : Registers} {c : Core} {j : Slot}
    (hs : (p.state.core.threads j).state = .empty) (ht : (c.threads j).state ≠ .empty) :
    (p.prepare r c).threadCtx j = contextInitThread r.fpu {} (c.threads j).stack := by
  unfold prepare
  simp [hs, ht]

theorem called_of_prepare {r r' : Registers} {c : Core} {j : Slot}
    (h : (p.prepare r c).called (.green j) = some r') : p.called (.green j) = some r' ∧
      ((p.state.core.threads j).state = .empty ↔ (c.threads j).state = .empty) := by
  unfold prepare at h
  dsimp only at h
  split at h
  · next hempty => exact ⟨h, decide_eq_decide.mp hempty⟩
  · cases h

/-- The switch at the end of a step. -/
inductive EndsIn (p : Processor) (l : Label × Registers) (t : State) : Prop where
  | none : switchOf l.1 t.core = none → (∀ k, t.core.cpu ≠ .swap k) → EndsIn p l t
  | dispatch (i : Slot) (f : Frame) : switchOf l.1 t.core = some (.dispatch .main i) →
      t.core.cpu = .swap (some ⟨.green i, f⟩) →
      ((t.core.threads i).state = .empty ↔ (p.state.core.threads i).state = .empty) → EndsIn p l t
  | leave (i : Slot) : switchOf l.1 t.core = some (.leave i) → p.state.core.kernel.OnCpu i →
      (∀ j f, t.core.cpu ≠ .swap (some ⟨.green j, f⟩)) → EndsIn p l t
  | exit : switchOf l.1 t.core = some .exit →
      (∀ j f, t.core.cpu ≠ .swap (some ⟨.green j, f⟩)) → EndsIn p l t

theorem endsIn (h : Kernel.SwitchMove p.state.core.kernel (Kernel.callOf l.1) t.core.kernel) :
    p.EndsIn l t := by
  have hback : ∀ {k : Kont}, Kernel.IsDispatcher k → t.core.cpu = .swap (some k) →
      ∀ j f, t.core.cpu ≠ .swap (some ⟨.green j, f⟩) := by
    rintro k ⟨act, caller, rfl⟩ hcpu j f hgreen
    cases hcpu.symm.trans hgreen
  cases h with
  | stay hcpu _ _ => exact .none (switchOf_none hcpu) hcpu
  | create _ hcpu _ _ _ _ _ => exact .none (switchOf_none hcpu) hcpu
  | free _ hcpu _ _ _ => exact .none (switchOf_none hcpu) hcpu
  | dispatch i f act tid hcpu _ hhist hkept =>
    have hcpu : t.core.cpu = _ := hcpu
    have hhist : t.core.hist = _ := hhist
    refine .dispatch i f ?_ hcpu (hkept.empty i)
    unfold switchOf
    rw [hcpu, hhist]
  | leave i k hist hi hk hl hcpu hhist _ _ =>
    have hcpu : t.core.cpu = _ := hcpu
    have hhist : t.core.hist = _ := hhist
    refine .leave i ?_ hi (hback hk hcpu)
    unfold switchOf
    rw [hcpu, hhist]
    dsimp only
    split
    · next x v heq => exact absurd (congrArg Kernel.callOf heq) (hl x v)
    · rfl
  | exit i v k hist _ hk hl hcpu hhist _ =>
    have hcpu : t.core.cpu = _ := hcpu
    have hhist : t.core.hist = _ := hhist
    refine .exit ?_ (hback hk hcpu)
    unfold switchOf
    rw [hcpu, hhist, Kernel.callOf_some hl]

/-- Only the thread on the CPU writes into its context. -/
theorem EndsIn.threadCtx (h : p.EndsIn l t) {j : Slot} (hoff : ¬ p.state.core.kernel.OnCpu j) :
    (p.after l t).threadCtx j = (p.prepare l.2 t.core).threadCtx j := by
  unfold after
  cases h with
  | none hsw _ => rw [hsw]; rfl
  | dispatch i f hsw _ _ => rw [hsw]; rfl
  | leave i hsw hi _ =>
    rw [hsw]
    refine Function.update_of_ne ?_ _ _
    rintro rfl
    exact hoff hi
  | exit hsw _ => rw [hsw]; rfl

/-- A thread calls `gth_ctx_swap` when it is on the CPU. -/
theorem EndsIn.called (h : p.EndsIn l t) {j : Slot} {r : Registers}
    (hr : (p.after l t).called (.green j) = some r) :
    (p.prepare l.2 t.core).called (.green j) = some r ∨ p.state.core.kernel.OnCpu j ∧ r = l.2 := by
  unfold after at hr
  cases h with
  | none hsw _ =>
    rw [hsw] at hr
    exact Or.inl hr
  | dispatch i f hsw _ _ =>
    rw [hsw] at hr
    exact Or.inl hr
  | leave i hsw hi _ =>
    rw [hsw] at hr
    have hr : Function.update (p.prepare l.2 t.core).called (.green i) (some l.2) (.green j)
        = some r := hr
    by_cases hj : j = i
    · rw [hj, Function.update_self] at hr
      exact Or.inr ⟨hj ▸ hi, (Option.some.inj hr).symm⟩
    · rw [Function.update_of_ne fun h => hj (Ctx.green.inj h)] at hr
      exact Or.inl hr
  | exit hsw _ =>
    rw [hsw] at hr
    exact Or.inl hr

/-- A thread that is dispatched has the registers of its context. -/
theorem EndsIn.loaded (h : p.EndsIn l t) {j : Slot} {f : Frame}
    (hcpu : t.core.cpu = .swap (some ⟨.green j, f⟩)) :
    (p.after l t).rip = (p.threadCtx j).rip ∧ (p.after l t).regs.gpr = (p.threadCtx j).gpr := by
  cases h with
  | none _ hno => exact absurd hcpu (hno _)
  | dispatch i f' hsw hcpu' hempty =>
    cases hcpu'.symm.trans hcpu
    unfold after
    rw [hsw, ← prepare_threadCtx (r := l.2) hempty]
    exact ⟨rfl, rfl⟩
  | leave _ _ _ hno => exact absurd hcpu (hno j f)
  | exit _ hno => exact absurd hcpu (hno j f)

end Processor

/-! ## The machine with memory -/

structure Computer where
  proc : Processor
  mem : Memory

namespace Computer

def core (m : Computer) : Core := m.proc.state.core

/-- The memory behind a code segment that has left `mem`: `gth_ctx_make` has been called for the
    slot that was filled. -/
def written (entry : BitVec 64) (s t : Core) (mem : Memory) : Memory :=
  match s.filled t with
  | none => mem
  | some i => ctxMakeStores mem (t.threads i).stack.stackTop entry (BitVec.ofNat 64 i)

/-- The computer after a code segment that led to the state `t`; `entry` is the address of
    `gth_context_thread_trampoline`. -/
def after (entry : BitVec 64) (m : Computer) (l : Label × Registers × Memory) (t : State) :
    Computer :=
  ⟨m.proc.after (l.1, l.2.1) t, written entry m.core t.core l.2.2⟩

/-- One step: a step of the machine, whose code has left `l.2.1` in the registers and `l.2.2` in the
    memory. -/
def step (W : World) (entry : BitVec 64) (m : Computer) (l : Label × Registers × Memory) :
    Option Computer :=
  (State.step W m.proc.state l.1).map (m.after entry l)

/-- What is assumed of the kernel and of the code that runs. -/
structure Sound (m : Computer) (l : Label × Registers × Memory) : Prop where
  /-- `mmap` answers with pages that are in no stack. -/
  mapped : ∀ x outTid attr fn arg env memory, l.1 = .call x (.create outTid attr fn arg env) →
    env.mmap = some memory → memory.toNat % m.core.pageSize.toNat = 0 ∧
      ∀ j y, (m.core.threads j).state ≠ .empty →
        (stackAt m.core.pageSize m.core.config.stackSizeBytes memory).Covers y →
        ¬ (m.core.threads j).stack.Covers y
  /-- A thread keeps its stack pointer in its stack. -/
  inside : ∀ i, m.core.kernel.OnCpu i →
    (m.core.threads i).stack.Usable m.core.pageSize l.2.1.gpr.rsp
  /-- Nobody writes into the stack of a thread that has not run yet. -/
  untouched : ∀ j y, m.core.Unstarted j → (m.core.threads j).stack.Covers y → l.2.2 y = m.mem y

/-- **Isolation.** -/
structure Isolated (entry : BitVec 64) (m : Computer) : Prop where
  /-- No byte is in the stacks of two threads. -/
  apart : ∀ i j y, (m.core.threads i).state ≠ .empty → (m.core.threads j).state ≠ .empty →
    (m.core.threads i).stack.Covers y → (m.core.threads j).stack.Covers y → i = j
  /-- A thread that `gth_ctx_swap` has just switched to is in its own stack. -/
  own : ∀ i f, m.core.cpu = .swap (some ⟨.green i, f⟩) →
    (m.core.threads i).stack.Usable m.core.pageSize m.proc.regs.gpr.rsp
  /-- At first it is in the trampoline, with an aligned stack pointer, and the trampoline is going
      to call `gth_context_thread_trampoline` with the thread's slot. -/
  enters : ∀ i, m.core.cpu = .swap (some ⟨.green i, .entry⟩) →
    m.proc.rip = .trampoline ∧ m.proc.regs.gpr.rsp.toNat % 16 = 0 ∧
      ctxTrampoline m.mem m.proc.regs.gpr.rsp = (entry, BitVec.ofNat 64 i)

/-- The context and the stack of a thread as `gth_context_init_thread` leaves them. -/
structure Primed (entry : BitVec 64) (m : Computer) (j : Slot) : Prop where
  rip : (m.proc.threadCtx j).rip = .trampoline
  rsp : (m.proc.threadCtx j).gpr.rsp = (m.core.threads j).stack.stackTop - 16
  args : ctxTrampoline m.mem ((m.core.threads j).stack.stackTop - 16)
    = (entry, BitVec.ofNat 64 j)

/-- The invariant. -/
structure Stacked (entry : BitVec 64) (m : Computer) : Prop where
  laid : ∀ j, (m.core.threads j).state ≠ .empty →
    (m.core.threads j).stack.LaidOut m.core.pageSize
  apart : ∀ i j y, (m.core.threads i).state ≠ .empty → (m.core.threads j).state ≠ .empty →
    (m.core.threads i).stack.Covers y → (m.core.threads j).stack.Covers y → i = j
  called : ∀ j r, (m.core.threads j).state ≠ .empty → m.proc.called (.green j) = some r →
    (m.core.threads j).stack.Usable m.core.pageSize r.gpr.rsp
  primed : ∀ j, m.core.Unstarted j → m.Primed entry j

section
variable {entry : BitVec 64} {W : World} {m : Computer} {l : Label × Registers × Memory} {t : State}

theorem pageSize_after (hstep : State.step W m.proc.state l.1 = some t) :
    t.core.pageSize = m.core.pageSize :=
  congrArg (fun p => p.2.2) (State.step_settings hstep)

/-- Every stack is laid out as `gth_stack_allocate` does it. -/
theorem Stacked.laid_after (h : m.Stacked entry) {k : Nat} (hpage : m.core.pageSize.toNat = 2 ^ k)
    (hk : 4 ≤ k) (hsound : m.Sound l) (hshift : m.proc.state.Shift l.1 t)
    (hstep : State.step W m.proc.state l.1 = some t) (j : Slot)
    (hj : (t.core.threads j).state ≠ .empty) :
    (t.core.threads j).stack.LaidOut t.core.pageSize := by
  rw [pageSize_after hstep]
  by_cases hs : (m.core.threads j).state = .empty
  · obtain ⟨-, x, p, outTid, attr, fn, arg, env, memory, hl, hmap, hok, hrec, -⟩ :=
      hshift.filled hstep hs hj
    rw [hrec]
    exact laidOut_stackAt hpage hk (hsound.mapped x outTid attr fn arg env memory hl hmap).1 hok
  · rw [hshift.stack_eq hstep hs hj]
    exact h.laid j hs

/-- A new stack is in none of the others. -/
theorem Stacked.apart_after (h : m.Stacked entry) (hsound : m.Sound l)
    (hshift : m.proc.state.Shift l.1 t) (hstep : State.step W m.proc.state l.1 = some t)
    (i j : Slot) (y : BitVec 64) (hi : (t.core.threads i).state ≠ .empty)
    (hj : (t.core.threads j).state ≠ .empty) (hyi : (t.core.threads i).stack.Covers y)
    (hyj : (t.core.threads j).stack.Covers y) : i = j := by
  -- the one that was there and the one that is new
  have hnew : ∀ i j, (t.core.threads i).state ≠ .empty → (t.core.threads j).state ≠ .empty →
      (m.core.threads i).state ≠ .empty → (m.core.threads j).state = .empty →
      (t.core.threads i).stack.Covers y → ¬ (t.core.threads j).stack.Covers y := by
    intro i j hi hj hsi hsj hyi hyj
    obtain ⟨-, x, p, outTid, attr, fn, arg, env, memory, hl, hmap, -, hrec, -⟩ :=
      hshift.filled hstep hsj hj
    rw [hrec] at hyj
    rw [hshift.stack_eq hstep hsi hi] at hyi
    exact (hsound.mapped x outTid attr fn arg env memory hl hmap).2 i y hsi hyj hyi
  by_cases hsi : (m.core.threads i).state = .empty <;>
    by_cases hsj : (m.core.threads j).state = .empty
  · by_contra hne
    obtain ⟨hrest, -⟩ := hshift.filled hstep hsj hj
    rw [hrest i hne] at hi
    exact hi hsi
  · exact absurd hyi (hnew j i hj hi hsj hsi hyj)
  · exact absurd hyj (hnew i j hi hj hsi hsj hyi)
  · rw [hshift.stack_eq hstep hsi hi] at hyi
    rw [hshift.stack_eq hstep hsj hj] at hyj
    exact h.apart i j y hsi hsj hyi hyj

/-- The stack of a thread that has not run keeps its contents. -/
theorem written_eq (hsound : m.Sound l) {j : Slot} (hun : m.core.Unstarted j)
    (hj : (t.core.threads j).state ≠ .empty)
    (hstack : (t.core.threads j).stack = (m.core.threads j).stack)
    (hlaid : ∀ j, (t.core.threads j).state ≠ .empty →
      (t.core.threads j).stack.LaidOut t.core.pageSize)
    (hapart : ∀ i j y, (t.core.threads i).state ≠ .empty → (t.core.threads j).state ≠ .empty →
      (t.core.threads i).stack.Covers y → (t.core.threads j).stack.Covers y → i = j)
    {y : BitVec 64} (hy : (t.core.threads j).stack.Covers y) :
    written entry m.core t.core l.2.2 y = m.mem y := by
  have hkeep : l.2.2 y = m.mem y := hsound.untouched j y hun (hstack ▸ hy)
  unfold written
  cases hf : m.core.filled t.core with
  | none => exact hkeep
  | some i =>
    obtain ⟨hs, ht⟩ := Core.filled_some hf
    refine (ctxMakeStores_of_not_within fun hw => ?_).trans hkeep
    obtain rfl := hapart i j y ht hj ((hlaid i ht).covers hw) hy
    rw [hun.1] at hs
    cases hs

/-- A thread that has been dispatched for the first time, or not yet, has its context and the
    arguments of the trampoline. -/
theorem Stacked.primed_keeps (h : m.Stacked entry) (hsound : m.Sound l)
    (hshift : m.proc.state.Shift l.1 t) (hstep : State.step W m.proc.state l.1 = some t)
    (hok : m.core.kernel.Ok) {j : Slot} (hun : m.core.Unstarted j)
    (hj : (t.core.threads j).state ≠ .empty)
    (hlaid : ∀ j, (t.core.threads j).state ≠ .empty →
      (t.core.threads j).stack.LaidOut t.core.pageSize)
    (hapart : ∀ i j y, (t.core.threads i).state ≠ .empty → (t.core.threads j).state ≠ .empty →
      (t.core.threads i).stack.Covers y → (t.core.threads j).stack.Covers y → i = j) :
    (m.after entry l t).Primed entry j := by
  have hs := hun.ne_empty
  have hoff : ¬ m.core.kernel.OnCpu j := by
    intro hon
    rcases hok.onCpu hon with hr | hr <;> cases hun.1.symm.trans hr
  have hstack := hshift.stack_eq hstep hs hj
  have hctx : (m.after entry l t).proc.threadCtx j = m.proc.threadCtx j := by
    refine ((Processor.endsIn hshift.switch).threadCtx hoff).trans (Processor.prepare_threadCtx ?_)
    exact iff_of_false hj hs
  have hold := h.primed j hun
  constructor
  · rw [hctx]
    exact hold.rip
  · rw [hctx]
    exact hold.rsp.trans (congrArg (fun st : StackAllocation => st.stackTop - 16) hstack.symm)
  · show ctxTrampoline (written entry m.core t.core l.2.2) ((t.core.threads j).stack.stackTop - 16)
      = _
    refine (ctxTrampoline_congr fun y hy => written_eq hsound hun hj hstack hlaid hapart
      ((hlaid j hj).covers hy)).trans ?_
    rw [hstack]
    exact hold.args

/-- A thread that has just been created. -/
theorem primed_created (hshift : m.proc.state.Shift l.1 t)
    (hstep : State.step W m.proc.state l.1 = some t) (hok : m.core.kernel.Ok) {j : Slot}
    (hs : (m.core.threads j).state = .empty) (hj : (t.core.threads j).state ≠ .empty) :
    (m.after entry l t).Primed entry j := by
  have hoff : ¬ m.core.kernel.OnCpu j := fun hon => hok.onCpu_ne_empty hon hs
  have hctx : (m.after entry l t).proc.threadCtx j
      = contextInitThread l.2.1.fpu {} (t.core.threads j).stack :=
    ((Processor.endsIn hshift.switch).threadCtx hoff).trans
      (Processor.prepare_threadCtx_filled hs hj)
  have hfilled : m.core.filled t.core = some j := by
    obtain ⟨i, hi⟩ := Option.ne_none_iff_exists'.mp (Core.filled_ne_none hs hj)
    obtain ⟨hsi, hti⟩ := Core.filled_some hi
    have hij : i = j := by
      by_contra hne
      rw [(hshift.filled hstep hs hj).1 i hne] at hti
      exact hti hsi
    rw [hi, hij]
  refine ⟨by rw [hctx]; rfl, by rw [hctx]; rfl, ?_⟩
  show ctxTrampoline (written entry m.core t.core l.2.2) _ = _
  unfold written
  rw [hfilled]
  exact ctxTrampoline_ctxMakeStores _ _ _ _

/-- **One step keeps the invariant.** -/
theorem Stacked.step (h : m.Stacked entry) {k : Nat} (hpage : m.core.pageSize.toNat = 2 ^ k)
    (hk : 4 ≤ k) (hsound : m.Sound l) (hshift : m.proc.state.Shift l.1 t)
    (hok : m.core.kernel.Ok) (hstep : State.step W m.proc.state l.1 = some t) :
    (m.after entry l t).Stacked entry := by
  have hlaid := h.laid_after hpage hk hsound hshift hstep
  have hapart := h.apart_after hsound hshift hstep
  refine ⟨hlaid, hapart, fun j r hj hr => ?_, fun j hun => ?_⟩
  · show (t.core.threads j).stack.Usable t.core.pageSize r.gpr.rsp
    rw [pageSize_after hstep]
    rcases (Processor.endsIn hshift.switch).called hr with hr | ⟨hon, rfl⟩
    · obtain ⟨hr, hempty⟩ := Processor.called_of_prepare hr
      have hs : (m.core.threads j).state ≠ .empty := hempty.not.mpr hj
      rw [hshift.stack_eq hstep hs hj]
      exact h.called j r hs hr
    · rw [hshift.stack_eq hstep (hok.onCpu_ne_empty hon) hj]
      exact hsound.inside j hon
  · have hst : (t.core.kernel.threads j).state = .ready := hun.1
    have hj : (t.core.threads j).state ≠ .empty := hun.ne_empty
    have hctx : (t.core.kernel.threads j).ctx = some ⟨.green j, .entry⟩ := hun.2
    -- a thread that is ready at its first instruction was so before, or is new
    cases hshift.thread j with
    | same hr _ =>
      rw [hr] at hst hctx
      exact h.primed_keeps hsound hshift hstep hok ⟨hst, hctx⟩ hj hlaid hapart
    | woken _ _ _ _ _ _ _ hb hr _ =>
      obtain ⟨f, hf, -, hwaits⟩ := hok.parked j (Or.inr hb)
      rw [hr] at hctx
      cases hf.symm.trans hctx
      exact absurd rfl (hwaits hb)
    | dispatched _ _ _ _ hr _ =>
      rw [hr] at hst
      cases hst
    | yielded _ _ hr _ =>
      rw [hr] at hctx
      cases hctx
    | blocked _ _ _ _ _ hr _ _ =>
      rw [hr] at hst
      cases hst
    | passed _ _ _ _ _ hr _ =>
      rw [hr] at hctx
      cases hctx
    | restored _ _ _ _ hr _ =>
      rw [hr] at hst
      cases hst
    | exited _ _ _ hterm _ _ =>
      rw [hst] at hterm
      cases hterm
    | canceled _ _ _ _ _ hr _ =>
      rw [hr] at hst
      cases hst
    | released _ hr _ =>
      rw [hr] at hst
      cases hst
    | created he _ _ => exact primed_created hshift hstep hok he hj

/-- **Whoever goes on after a step is in its own stack.** -/
theorem Stacked.isolated (h : m.Stacked entry) (hafter : (m.after entry l t).Stacked entry)
    (hsound : m.Sound l) (hshift : m.proc.state.Shift l.1 t) (hok : m.core.kernel.Ok)
    (hok' : t.core.kernel.Ok) (hstep : State.step W m.proc.state l.1 = some t)
    (hrestored : (m.after entry l t).proc.RestoredButMainFpu) :
    (m.after entry l t).Isolated entry := by
  -- the first dispatch
  have henters : ∀ i, t.core.cpu = .swap (some ⟨.green i, .entry⟩) →
      (m.after entry l t).proc.rip = .trampoline ∧
      (m.after entry l t).proc.regs.gpr.rsp = (t.core.threads i).stack.stackTop - 16 ∧
      ctxTrampoline (m.after entry l t).mem ((t.core.threads i).stack.stackTop - 16)
        = (entry, BitVec.ofNat 64 i) := by
    intro i hcpu
    have hj : (t.core.threads i).state ≠ .empty := hok'.onCpu_ne_empty (Or.inr ⟨_, hcpu⟩)
    have hentering : t.core.kernel.Entering i .entry := hcpu
    have hun : m.core.Unstarted i := by
      cases hshift.thread i with
      | dispatched f _ hst hctx _ hf =>
        cases hf.symm.trans hentering
        exact ⟨hst, hctx⟩
      | same _ hno => exact absurd hentering (hno _)
      | woken _ _ _ _ _ _ _ _ _ hno => exact absurd hentering (hno _)
      | yielded _ _ _ hno => exact absurd hentering (hno _)
      | blocked _ _ _ _ _ _ hno _ => exact absurd hentering (hno _)
      | passed _ _ _ _ _ _ hno => exact absurd hentering (hno _)
      | restored _ _ _ _ _ hno => exact absurd hentering (hno _)
      | exited _ _ _ _ _ hno => exact absurd hentering (hno _)
      | canceled _ _ _ _ _ _ hno => exact absurd hentering (hno _)
      | released _ _ hno => exact absurd hentering (hno _)
      | created _ _ hno => exact absurd hentering (hno _)
    obtain ⟨hrip, hgpr⟩ :=
      (Processor.endsIn (p := m.proc) (l := (l.1, l.2.1)) hshift.switch).loaded hcpu
    have hold := h.primed i hun
    have hnew := h.primed_keeps hsound hshift hstep hok hun hj hafter.laid hafter.apart
    have hstack := hshift.stack_eq hstep (j := i) hun.ne_empty hj
    refine ⟨hrip.trans hold.rip, (congrArg Gpr.rsp hgpr).trans (hold.rsp.trans ?_), hnew.args⟩
    exact congrArg (fun st : StackAllocation => st.stackTop - 16) hstack.symm
  refine ⟨hafter.apart, fun i f hcpu => ?_, fun i hcpu => ?_⟩
  · have hj : (t.core.threads i).state ≠ .empty := hok'.onCpu_ne_empty (Or.inr ⟨f, hcpu⟩)
    by_cases hf : f = .entry
    · subst hf
      rw [(henters i hcpu).2.1]
      exact (hafter.laid i hj).usable
    · obtain ⟨-, r, hr, hgpr, -⟩ := hrestored ⟨.green i, f⟩ hcpu hf
      rw [hgpr]
      exact hafter.called i r hj hr
  · have hj : (t.core.threads i).state ≠ .empty := hok'.onCpu_ne_empty (Or.inr ⟨_, hcpu⟩)
    obtain ⟨hrip, hrsp, hargs⟩ := henters i hcpu
    rw [hrsp]
    exact ⟨hrip, (hafter.laid i hj).rsp_aligned, hargs⟩

end

theorem step_some {W : World} {entry : BitVec 64} {m m' : Computer}
    {l : Label × Registers × Memory} (h : step W entry m l = some m') :
    ∃ t, State.step W m.proc.state l.1 = some t ∧ m' = m.after entry l t := by
  obtain ⟨t, ht, rfl⟩ := Option.map_eq_some_iff.mp h
  exact ⟨t, ht, rfl⟩

/-- The start: no thread is there. -/
def start (config : ValidConfig) (pageSize : BitVec 64) (files : Path → Option (List UInt8))
    (r : Registers) (mem : Memory) : Computer := ⟨.start config pageSize files r, mem⟩

end Computer

/-- **Stacks are isolated.**  If `mmap` answers with pages that are in no stack, the threads keep
    their stack pointers in their stacks and nobody writes into a stack before it is used, then at
    any time no byte is in the stacks of two threads, a thread goes on in its own stack behind the
    guard page, and at first in the trampoline, which calls `gth_context_thread_trampoline` with the
    thread's own slot and with an aligned stack pointer. -/
theorem stacks_isolated (W : World) (config : ValidConfig) (pageSize : BitVec 64) (k : Nat)
    (hpage : pageSize.toNat = 2 ^ k) (hk : 4 ≤ k) (files : Path → Option (List UInt8))
    (entry : BitVec 64) (r : Registers) (mem : ByteMemory.Memory)
    (ls : List (Label × Registers × ByteMemory.Memory)) (hjoin : JoinsFromMain (ls.map Prod.fst))
    (hcreates : creates (ls.map Prod.fst) < 2 ^ 64)
    (hsound : Exec.Along (Computer.step W entry) Computer.Sound
      (.start config pageSize files r mem) ls) :
    Exec.Always (Computer.step W entry) (Computer.Isolated entry)
      (.start config pageSize files r mem) ls := by
  have hstate : ∀ m l m', Computer.step W entry m l = some m' →
      State.step W m.proc.state l.1 = some m'.proc.state := by
    intro m l m' hm
    obtain ⟨t, ht, rfl⟩ := Computer.step_some hm
    exact ht
  have htame := Exec.along_comap (fun m : Computer => m.proc.state) Prod.fst hstate ls
    (.start config pageSize files r mem)
    (State.along_tame (W := W) _ _ (State.start_wf config pageSize files) hjoin (by
      show (State.start config pageSize files).core.issued + _ < _
      rw [State.start_core, Nat.zero_add]
      exact hcreates))
  let I := fun m : Computer => m.core.pageSize = pageSize ∧ m.core.QueuesWf ∧ m.proc.Mirrors ∧
    m.Stacked entry ∧ m.Isolated entry
  have hempty : ∀ i, (Computer.start config pageSize files r mem).core.threads i = {} := by
    intro i
    show (State.start config pageSize files).core.threads i = {}
    rw [State.start_core]
  have hcpu : (Computer.start config pageSize files r mem).core.cpu = .user .main :=
    congrArg Kernel.cpu (Kernel.start_kernel config pageSize files).1
  refine Exec.always_mono (fun m hm => hm.2.2.2.2) _ _ (Exec.always_inv (I := I)
    (fun m l m' hI hG hm' => ?_) ls _ ⟨?_, (Kernel.start_kernel config pageSize files).2,
      Processor.start_mirrors config pageSize files r, ?_, ?_⟩ (Exec.along_and _ _ htame hsound))
  · obtain ⟨hsize, hq, hmirrors, hstacked, -⟩ := hI
    obtain ⟨ht, hs⟩ := hG
    obtain ⟨t, hstep, rfl⟩ := Computer.step_some hm'
    have hshift := State.step_shift hq ht hstep
    have hok := ht.1.kernel_ok
    have hok' := (ht.2.2 t hstep).kernel_ok
    have hswitched := hmirrors.switched (l := (l.1, l.2.1)) hq ht hstep
    have hafter := hstacked.step (hsize ▸ hpage) hk hs hshift hok hstep
    exact ⟨(Computer.pageSize_after hstep).trans hsize,
      Kernel.queuesWf_step m.proc.state l.1 t hq ht hstep, hswitched.mirrors, hafter,
      hstacked.isolated hafter hs hshift hok hok' hstep hswitched.butFpu⟩
  · show (State.start config pageSize files).core.pageSize = pageSize
    rw [State.start_core]
  · refine ⟨fun j hj => ?_, fun i _ _ hi => ?_, fun j _ hj => ?_, fun j hj => ?_⟩
    · exact absurd (congrArg ThreadRecord.state (hempty j)) hj
    · exact absurd (congrArg ThreadRecord.state (hempty i)) hi
    · exact absurd (congrArg ThreadRecord.state (hempty j)) hj
    · have hready := hj.1
      rw [hempty j] at hready
      cases hready
  · refine ⟨fun i _ _ hi => ?_, fun i f hf => ?_, fun i hf => ?_⟩
    · exact absurd (congrArg ThreadRecord.state (hempty i)) hi
    · cases hcpu.symm.trans hf
    · cases hcpu.symm.trans hf

namespace Sample

/-- The address of `gth_context_thread_trampoline`. -/
def entryAddress : BitVec 64 := 0x401000

/-- The memory when `gth_ctx_make` has prepared the stack at `0x10000`. -/
def primedMemory : ByteMemory.Memory := ctxMakeStores (fun _ => 0) 0x15000 entryAddress 0

/-- The memory when it has also prepared the stack at `0x20000`. -/
def primedTwice : ByteMemory.Memory := ctxMakeStores primedMemory 0x25000 entryAddress 1

/-- A creation for which `mmap` answers with the pages at `0x20000`. -/
def createNext : Call := .create true none 1 0 ⟨some 0x20000, true⟩

/-- Main creates two threads and dispatches the first. -/
def firstDispatch : List (Label × Registers × ByteMemory.Memory) :=
  [(main create, mainRegisters, fun _ => 0), (main createNext, mainRegisters, primedMemory),
    (main .yield, mainRegisters, primedTwice), (.tau, mainRegisters, primedTwice)]

def computer : Computer := .start config 4096#64 (fun _ => none) mainRegisters fun _ => 0

/-- Main has created the first thread. -/
def oneStack : Option State := State.step world start (main create)

/-- Main has created both threads. -/
def twoStacks : Option State := oneStack.bind fun t => State.step world t (main createNext)

theorem oneStack_eq : oneStack.map (fun t => (t.core.cpu, start.core.filled t.core,
      (t.core.threads 0).stack, t.core.pageSize, t.core.config.stackSizeBytes,
      decide (∀ j, (t.core.threads j).state ≠ .empty → j = 0)))
    = some (.user .main, some 0, stackAt 4096 16384 0x10000, 4096, 16384, true) := by
  decide +kernel

theorem twoStacks_eq : (oneStack.bind fun t => (State.step world t (main createNext)).map fun u =>
      (u.core.cpu, t.core.filled u.core, (u.core.threads 1).stack.stackTop))
    = some (.user .main, some 1, 0x25000) := by
  decide +kernel

theorem yield_eq : (twoStacks.bind fun t => (State.step world t (main .yield)).map fun u =>
      (u.core.cpu, t.core.filled u.core))
    = some (.sched .main .yield, none) := by
  decide +kernel

end Sample

/-- The code of main that leaves the stacks alone. -/
theorem Computer.Sound.of_main {m : Computer} {l : Label × Registers × ByteMemory.Memory}
    (hmap : ∀ x outTid attr fn arg env memory, l.1 = .call x (.create outTid attr fn arg env) →
      env.mmap = some memory → memory.toNat % m.core.pageSize.toNat = 0 ∧
        ∀ j y, (m.core.threads j).state ≠ .empty →
          (stackAt m.core.pageSize m.core.config.stackSizeBytes memory).Covers y →
          ¬ (m.core.threads j).stack.Covers y)
    (hcpu : ∀ i, ¬ m.core.kernel.OnCpu i) (hmem : l.2.2 = m.mem) : m.Sound l :=
  ⟨hmap, fun i hi => absurd hi (hcpu i), fun _ y _ _ => congrFun hmem y⟩

/-- The memory after `gth_ctx_make` has been called for the slot `i`. -/
theorem Computer.written_some {entry : BitVec 64} {s t : Core} {i : Slot} {top : BitVec 64}
    (hfilled : s.filled t = some i) (htop : (t.threads i).stack.stackTop = top)
    (mem : ByteMemory.Memory) :
    Computer.written entry s t mem = ctxMakeStores mem top entry (BitVec.ofNat 64 i) := by
  unfold Computer.written
  rw [hfilled]
  exact congrArg (fun top => ctxMakeStores mem top entry (BitVec.ofNat 64 i)) htop

/-- The stacks at `0x10000` and at `0x20000` are apart. -/
theorem Sample.stackAt_apart {y : BitVec 64} (h : (stackAt 4096 16384 0x20000).Covers y) :
    ¬ (stackAt 4096 16384 0x10000).Covers y := by
  have hsize : (stackAt 4096 16384 0x10000).totalSize.toNat = 0x5000 := by decide
  have hsize' : (stackAt 4096 16384 0x20000).totalSize.toNat = 0x5000 := by decide
  unfold StackAllocation.Covers ByteMemory.Within at h ⊢
  rw [hsize'] at h
  rw [hsize]
  simp only [stackAt] at h ⊢
  bv_omega

/-- Main creates the stacks apart and leaves them alone. -/
theorem Sample.firstDispatch_sound : Exec.Along (Computer.step Sample.world Sample.entryAddress)
    Computer.Sound Sample.computer Sample.firstDispatch := by
  refine ⟨?_, fun m₁ h₁ => ?_⟩
  · refine .of_main (fun x outTid attr fn arg env memory hl hmap => ?_) (fun i hi => ?_) rfl
    · cases hl
      cases hmap
      exact ⟨rfl, fun j y hj => absurd rfl hj⟩
    · rcases hi with hi | ⟨f, hi⟩ <;> cases hi
  -- after the first creation
  obtain ⟨t, ht, rfl⟩ := Computer.step_some h₁
  have ht : Sample.oneStack = some t := ht
  have hone := Sample.oneStack_eq
  have htwo := Sample.twoStacks_eq
  have hyield := Sample.yield_eq
  rw [ht] at hone htwo
  rw [Sample.twoStacks, ht] at hyield
  simp only [Option.map_some, Option.some.injEq, Prod.mk.injEq, decide_eq_true_eq] at hone
  obtain ⟨hcpu₁, hfilled₁, hstack₁, hpage, hsize, honly⟩ := hone
  refine ⟨.of_main (fun x outTid attr fn arg env memory hl hmap => ?_) (fun i hi => ?_)
    (Computer.written_some hfilled₁ (congrArg StackAllocation.stackTop hstack₁) _).symm,
    fun m₂ h₂ => ?_⟩
  · cases hl
    cases hmap
    refine ⟨?_, fun j y hj hy => ?_⟩
    · show _ % t.core.pageSize.toNat = 0
      rw [hpage]
      decide
    · have hj : j = 0 := honly j hj
      have hy : (stackAt t.core.pageSize t.core.config.stackSizeBytes 0x20000).Covers y := hy
      rw [hpage, hsize] at hy
      show ¬ (t.core.threads j).stack.Covers y
      rw [hj, hstack₁]
      exact Sample.stackAt_apart hy
  · rcases hi with hi | ⟨f, hi⟩ <;> cases hcpu₁.symm.trans hi
  -- after the second creation
  obtain ⟨u, hu, rfl⟩ := Computer.step_some h₂
  have hu : State.step Sample.world t (Sample.main Sample.createNext) = some u := hu
  simp only [Option.bind_some, hu, Option.map_some, Option.some.injEq, Prod.mk.injEq] at htwo hyield
  obtain ⟨hcpu₂, hfilled₂, htop₂⟩ := htwo
  refine ⟨.of_main (fun x outTid attr fn arg env memory hl _ => ?_) (fun i hi => ?_)
    (Computer.written_some hfilled₂ htop₂ _).symm, fun m₃ h₃ => ?_⟩
  · cases hl
  · rcases hi with hi | ⟨f, hi⟩ <;> cases hcpu₂.symm.trans hi
  -- in the scheduler
  obtain ⟨v, hv, rfl⟩ := Computer.step_some h₃
  have hv : State.step Sample.world u (Sample.main .yield) = some v := hv
  simp only [hv, Option.map_some, Option.some.injEq, Prod.mk.injEq] at hyield
  obtain ⟨hcpu₃, hfilled₃⟩ := hyield
  refine ⟨.of_main (fun x outTid attr fn arg env memory hl _ => ?_) (fun i hi => ?_) ?_,
    fun _ _ => trivial⟩
  · cases hl
  · rcases hi with hi | ⟨f, hi⟩ <;> cases hcpu₃.symm.trans hi
  · show _ = Computer.written Sample.entryAddress u.core v.core Sample.primedTwice
    unfold Computer.written
    rw [hfilled₃]

/-- The first dispatch of a thread while there are two: the byte at `0x11000` is in its stack and,
    by isolation, not in the other one. -/
theorem stacks_isolated_two : ∃ m, Exec.exec (Computer.step Sample.world Sample.entryAddress)
      Sample.computer Sample.firstDispatch = some m ∧
    m.core.cpu = .swap (some ⟨.green 0, .entry⟩) ∧ m.Isolated Sample.entryAddress ∧
    (m.core.threads 0).stack.Covers 0x11000 ∧ (m.core.threads 1).stack.Covers 0x21000 ∧
    ¬ (m.core.threads 1).stack.Covers 0x11000 := by
  have hrun : (Exec.exec (Computer.step Sample.world Sample.entryAddress) Sample.computer
      Sample.firstDispatch).map (fun m => (m.core.cpu, (m.core.threads 0).stack,
        (m.core.threads 1).stack, (m.core.threads 0).state, (m.core.threads 1).state))
      = some (.swap (some ⟨.green 0, .entry⟩), stackAt 4096 16384 0x10000,
        stackAt 4096 16384 0x20000, .running, .ready) := by
    decide +kernel
  obtain ⟨m, hm, hfacts⟩ := Option.map_eq_some_iff.mp hrun
  simp only [Prod.mk.injEq] at hfacts
  obtain ⟨hcpu, hstack, hstack', hstate, hstate'⟩ := hfacts
  have hcovers : (m.core.threads 0).stack.Covers 0x11000 := by
    rw [hstack]
    show BitVec.toNat _ < _
    decide
  have hisolated := Exec.always_last _ _ _ (stacks_isolated Sample.world Sample.config 4096#64 12
    (by decide) (by decide) (fun _ => none) Sample.entryAddress Sample.mainRegisters (fun _ => 0)
    Sample.firstDispatch (by unfold JoinsFromMain; decide) (by decide) Sample.firstDispatch_sound) hm
  refine ⟨m, hm, hcpu, hisolated, hcovers, ?_, fun hboth => ?_⟩
  · rw [hstack']
    show BitVec.toNat _ < _
    decide
  · have hsame := hisolated.apart 0 1 0x11000 (by rw [hstate]; decide) (by rw [hstate']; decide)
      hcovers hboth
    exact absurd hsame (by decide)

end Gth

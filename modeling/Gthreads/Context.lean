/-
  Contexts (`src/context/ctx_x86_64.S` and `src/context/context.c`).

  The machine is the registers that a callee has to preserve, the resume address and the FPU control
  state.  `gth_ctx_swap` and `gth_ctx_make` are written as their instructions, one `let` for each
  store or load, with the two tests of `fxsave_area`.  The memory is not here: what `gth_ctx_make`
  stores into the new stack, for the trampoline to load, is in `Gthreads.StackMemory`.
-/
import Gthreads.Types

namespace Gth

/-- The FPU control state: the x87 control word and MXCSR. -/
structure Fpu where
  fcw : BitVec 16 := 0
  mxcsr : BitVec 32 := 0
  deriving DecidableEq

/-- The callee-saved registers and the stack pointer. -/
structure Gpr where
  rbx : BitVec 64 := 0
  rbp : BitVec 64 := 0
  r12 : BitVec 64 := 0
  r13 : BitVec 64 := 0
  r14 : BitVec 64 := 0
  r15 : BitVec 64 := 0
  rsp : BitVec 64 := 0
  deriving DecidableEq

/-- What the SysV AMD64 ABI makes a callee preserve. -/
@[ext]
structure Registers where
  gpr : Gpr := {}
  fpu : Fpu := {}
  deriving DecidableEq

/-- The code addresses that `regs[7]` can hold. -/
inductive Rip where
  | null
  /-- Label `1` of `gth_ctx_swap`: the call returns to its caller. -/
  | resume
  /-- `gth_ctx_trampoline`. -/
  | trampoline
  deriving DecidableEq

/-- `gth_ctx_t`; the defaults are what `memset` leaves.  `fxsave_area` is `NULL`, or it points to
    `fxsave_buf` (`true`). -/
structure GthCtx where
  gpr : Gpr := {}
  rip : Rip := .null
  fxsaveArea : Bool := false
  fxsaveBuf : Fpu := {}
  deriving DecidableEq

/-- `gth_ctx_swap(src, dst)`, called with the registers `r`: the registers and the address with
    which the processor goes on, and what was saved in `src`. -/
def ctxSwap (r : Registers) (src dst : GthCtx) : Registers × Rip × GthCtx :=
  let src := { src with gpr.rbx := r.gpr.rbx }
  let src := { src with gpr.rbp := r.gpr.rbp }
  let src := { src with gpr.r12 := r.gpr.r12 }
  let src := { src with gpr.r13 := r.gpr.r13 }
  let src := { src with gpr.r14 := r.gpr.r14 }
  let src := { src with gpr.r15 := r.gpr.r15 }
  let src := { src with gpr.rsp := r.gpr.rsp }
  let src := { src with rip := .resume }
  let src := if src.fxsaveArea then { src with fxsaveBuf := r.fpu } else src
  let r := if dst.fxsaveArea then { r with fpu := dst.fxsaveBuf } else r
  let r := { r with gpr.rbx := dst.gpr.rbx }
  let r := { r with gpr.rbp := dst.gpr.rbp }
  let r := { r with gpr.r12 := dst.gpr.r12 }
  let r := { r with gpr.r13 := dst.gpr.r13 }
  let r := { r with gpr.r14 := dst.gpr.r14 }
  let r := { r with gpr.r15 := dst.gpr.r15 }
  let r := { r with gpr.rsp := dst.gpr.rsp }
  (r, dst.rip, src)

/-- `gth_ctx_make(ctx, stack_top, ..)`, called with the FPU state `fpu`. -/
def ctxMake (fpu : Fpu) (ctx : GthCtx) (stackTop : BitVec 64) : GthCtx :=
  let ctx := { ctx with gpr.rbx := 0 }
  let ctx := { ctx with gpr.rbp := 0 }
  let ctx := { ctx with gpr.r12 := 0 }
  let ctx := { ctx with gpr.r13 := 0 }
  let ctx := { ctx with gpr.r14 := 0 }
  let ctx := { ctx with gpr.r15 := 0 }
  let ctx := { ctx with gpr.rsp := stackTop - 16 }
  let ctx := { ctx with rip := .trampoline }
  if ctx.fxsaveArea then { ctx with fxsaveBuf := fpu } else ctx

/-- `gth_context_init_thread`, for arguments that are not `NULL`. -/
def contextInitThread (fpu : Fpu) (ctx : GthCtx) (stack : StackAllocation) : GthCtx :=
  let ctx := { ctx with fxsaveBuf := {} }
  let ctx := { ctx with fxsaveArea := true }
  ctxMake fpu ctx stack.stackTop

/-! ## What a switch does -/

section
variable (r : Registers) (src dst : GthCtx)

/-- The FPU state is loaded if the context switched to has a place for it. -/
theorem ctxSwap_fpu : (ctxSwap r src dst).1.fpu
    = if dst.fxsaveArea then dst.fxsaveBuf else r.fpu := by
  unfold ctxSwap
  dsimp only
  split <;> rfl

/-- The FPU state is saved if the context switched from has a place for it. -/
theorem ctxSwap_saved : (ctxSwap r src dst).2.2 = ⟨r.gpr, .resume, src.fxsaveArea,
    if src.fxsaveArea then r.fpu else src.fxsaveBuf⟩ := by
  unfold ctxSwap
  dsimp only
  split <;> rfl

/-- A context with a place for the FPU state gives back all registers saved there. -/
theorem ctxSwap_load (s : Registers) (rip : Rip) :
    ctxSwap r src ⟨s.gpr, rip, true, s.fpu⟩
      = (s, rip, (ctxSwap r src ⟨s.gpr, rip, true, s.fpu⟩).2.2) := rfl

end

theorem contextInitThread_eq (fpu : Fpu) (ctx : GthCtx) (stack : StackAllocation) :
    contextInitThread fpu ctx stack
      = ⟨{ rsp := stack.stackTop - 16 }, .trampoline, true, fpu⟩ := rfl

end Gth

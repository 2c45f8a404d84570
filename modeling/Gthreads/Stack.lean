/-
  Stack allocation (`src/context/stack.c`).

  `size_t` and `uintptr_t` are 64 bits wide, so sizes and addresses are `BitVec 64` with its
  wrapping arithmetic.  What `mmap` and `mprotect` answer is a parameter (`MapEnv`).
-/
import Gthreads.Types

namespace Gth

/-- `GTH_MAX_STACK_SIZE`, 64 MiB. -/
def maxStackSize : BitVec 64 := 64 * 1024 * 1024

/-- `gth_is_power_of_two`. -/
def isPowerOfTwo (value : BitVec 64) : Bool := value != 0 && (value &&& (value - 1)) == 0

/-- `gth_align_up`. -/
def alignUp (value alignment : BitVec 64) : BitVec 64 := (value + alignment - 1) &&& ~~~(alignment - 1)

/-- `gth_stack_allocate`: the status and the allocation, cleared when the call fails. -/
def stackAllocate (pageSize : BitVec 64) (env : MapEnv) (stackSizeBytes : BitVec 64) :
    Status × StackAllocation :=
  if pageSize = 0 ∨ isPowerOfTwo pageSize = false then (.einternal, {})
  else if stackSizeBytes < 16 * 1024 ∨ maxStackSize < stackSizeBytes then (.einval, {})
  else
    let alignedStackSize := alignUp stackSizeBytes pageSize
    if alignedStackSize < stackSizeBytes then (.einval, {})
    else
      let totalSize := alignedStackSize + pageSize
      if totalSize < alignedStackSize then (.einval, {})
      else match env.mmap with
        | none => (.enomem, {})
        | some memory =>
          if env.mprotectOk = false then (.einternal, {})
          else (.ok,
            { memory := memory, totalSize := totalSize, stackSize := alignedStackSize,
              guardPage := memory, stackTop := memory + totalSize })

end Gth

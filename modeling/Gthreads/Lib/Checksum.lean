/-
  Checksums that see every single change.

  A checksum folds a step `f` over the entries.  If a step loses nothing, neither of the state
  (`∀ b, Injective (f · b)`) nor of the entry (`∀ s, Injective (f s)`), then two lists that differ
  in one place have different checksums: the states part at that place, and later steps keep them
  apart (`foldl_set_ne`).  The step of FNV-1a is of this kind, because an exclusive or can be undone
  and a factor that has an inverse modulo `2 ^ w` can be divided out (`xorMul_state`,
  `xorMul_entry`).
-/
import Mathlib

namespace Checksum
open Function

section
variable {σ β : Type*} {f : σ → β → σ}

theorem foldl_injective (hstate : ∀ b, Injective (f · b)) :
    ∀ l : List β, Injective fun s => l.foldl f s
  | [], _, _, h => h
  | b :: l, _, _, h => hstate b (foldl_injective hstate l h)

/-- **One changed entry is seen.** -/
theorem foldl_set_ne (hstate : ∀ b, Injective (f · b)) (hentry : ∀ s, Injective (f s)) {b : β} :
    ∀ (l : List β) (k : Nat) (s : σ), k < l.length → l[k]? ≠ some b →
      (l.set k b).foldl f s ≠ l.foldl f s
  | a :: l, 0, s, _, hne => by
    intro heq
    have hstep : f s b = f s a := foldl_injective hstate l heq
    exact hne (congrArg some (hentry s hstep).symm)
  | a :: l, k + 1, s, hk, hne =>
    foldl_set_ne hstate hentry l k (f s a) (Nat.lt_of_succ_lt_succ hk) hne

end

section
variable {w : Nat} {p q : BitVec w}

/-- A factor with an inverse can be divided out. -/
theorem mul_injective (h : p * q = 1#w) : Injective (· * p) := by
  intro x y hxy
  have hback : ∀ z : BitVec w, z * p * q = z := fun z => by
    rw [BitVec.mul_assoc, h, BitVec.mul_one]
  calc x = x * p * q := (hback x).symm
    _ = y * p * q := congrArg (· * q) hxy
    _ = y := hback y

theorem xorMul_state (h : p * q = 1#w) (b : BitVec w) : Injective fun s => (s ^^^ b) * p :=
  fun _ _ hst => BitVec.xor_left_inj b |>.mp (mul_injective h hst)

theorem xorMul_entry (h : p * q = 1#w) (s : BitVec w) : Injective fun b => (s ^^^ b) * p :=
  fun _ _ hst => BitVec.xor_right_inj s |>.mp (mul_injective h hst)

end
end Checksum

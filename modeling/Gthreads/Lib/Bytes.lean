/-
  Fixed-width little-endian numbers and files of fixed-size blocks.

  `leBytes w x` writes the low `w` bytes of `x`, least significant first; `ofLe` reads a byte
  string back.  Reading what was written gives `x` modulo `256 ^ w` (`ofLe_leBytes`), so exactly
  `x` when it fits.  A file of blocks of one size is read block by block through `block`.
-/
import Mathlib

namespace Bytes

/-- The low `w` bytes of `x`, least significant byte first. -/
def leBytes : Nat → Nat → List UInt8
  | 0, _ => []
  | w + 1, x => UInt8.ofNat x :: leBytes w (x / 256)

/-- The number a byte string denotes, least significant byte first. -/
def ofLe : List UInt8 → Nat
  | [] => 0
  | b :: bs => b.toNat + 256 * ofLe bs

@[simp] theorem length_leBytes (w x : Nat) : (leBytes w x).length = w := by
  induction w generalizing x with
  | zero => rfl
  | succ w ih => exact congrArg (· + 1) (ih (x / 256))

/-- **Round trip**, modulo the width. -/
theorem ofLe_leBytes (w x : Nat) : ofLe (leBytes w x) = x % 256 ^ w := by
  induction w generalizing x with
  | zero => exact (Nat.mod_one x).symm
  | succ w ih =>
    have hbyte : (UInt8.ofNat x).toNat = x % 256 := UInt8.toNat_ofNat'
    show (UInt8.ofNat x).toNat + 256 * ofLe (leBytes w (x / 256)) = _
    rw [hbyte, ih, Nat.pow_succ', Nat.mod_mul]

/-- The `len` bytes at offset `off`. -/
def slice (off len : Nat) (bs : List UInt8) : List UInt8 := (bs.drop off).take len

/-- A slice that starts behind a part of known length. -/
theorem slice_append {off len : Nat} {as : List UInt8} (h : as.length = off) (bs : List UInt8) :
    slice off len (as ++ bs) = bs.take len := by
  unfold slice
  rw [List.drop_left' h]

/-- A field between what stands before and behind it. -/
theorem slice_field {off len : Nat} {a b : List UInt8} (ha : a.length = off) (hb : b.length = len)
    (cs : List UInt8) : slice off len (a ++ (b ++ cs)) = b := by
  rw [slice_append ha, List.take_left' hb]

/-- Byte strings of one length that denote the same number are the same. -/
theorem ofLe_inj : ∀ {as bs : List UInt8}, as.length = bs.length → ofLe as = ofLe bs → as = bs
  | [], [], _, _ => rfl
  | a :: as, b :: bs, hlen, h => by
    have ha := a.toNat_lt
    have hb := b.toNat_lt
    have h : a.toNat + 256 * ofLe as = b.toNat + 256 * ofLe bs := h
    have hbyte : a = b := UInt8.toNat_inj.mp (by omega)
    rw [hbyte, ofLe_inj (Nat.succ.inj hlen) (by omega)]

theorem getElem?_slice {off len k : Nat} (h : k < len) (bs : List UInt8) :
    (slice off len bs)[k]? = bs[off + k]? := by
  rw [slice, List.getElem?_take, if_pos h, List.getElem?_drop]

/-- A byte before the slice is changed. -/
theorem slice_set_before {off len k : Nat} (h : k < off) (bs : List UInt8) (b : UInt8) :
    slice off len (bs.set k b) = slice off len bs := by
  rw [slice, List.drop_set, if_pos h]
  rfl

/-- A byte of the slice is changed. -/
theorem slice_set {off len k : Nat} (bs : List UInt8) (b : UInt8) :
    slice off len (bs.set (off + k) b) = (slice off len bs).set k b := by
  rw [slice, List.drop_set, if_neg (by omega), List.take_set, Nat.add_sub_cancel_left]
  rfl

/-- **A changed byte changes the number.** -/
theorem ofLe_set_ne {bs : List UInt8} {k : Nat} {b : UInt8} (hk : k < bs.length)
    (hne : bs[k]? ≠ some b) : ofLe (bs.set k b) ≠ ofLe bs := by
  intro heq
  have hsame := ofLe_inj List.length_set heq
  refine hne ?_
  rw [← hsame, List.getElem?_set_self hk]

/-- Block number `i` of a file of blocks of `n` bytes. -/
def block (n i : Nat) (bs : List UInt8) : List UInt8 := slice (n * i) n bs

/-- The blocks of a concatenation of blocks are those blocks. -/
theorem block_flatten {n : Nat} :
    ∀ (bss : List (List UInt8)) (_ : ∀ b ∈ bss, b.length = n) (i : Nat) (hi : i < bss.length),
      block n i bss.flatten = bss.get ⟨i, hi⟩
  | b :: bss, h, 0, _ => by
    have hb : b.length = n := h b List.mem_cons_self
    show (List.drop (n * 0) (b ++ bss.flatten)).take n = b
    rw [Nat.mul_zero, List.drop_zero, List.take_left' hb]
  | b :: bss, h, i + 1, hi => by
    have hb : b.length = n := h b List.mem_cons_self
    have ih := block_flatten bss (fun c hc => h c (List.mem_cons_of_mem b hc)) i
      (Nat.lt_of_succ_lt_succ hi)
    have hdrop : List.drop (n * (i + 1)) (b ++ bss.flatten) = List.drop (n * i) bss.flatten := by
      rw [Nat.mul_succ, Nat.add_comm, ← List.drop_drop, List.drop_left' hb]
    show (List.drop (n * (i + 1)) (b ++ bss.flatten)).take n = _
    rw [hdrop]
    exact ih

/-- A file that is cut off behind block `i` still has block `i`. -/
theorem block_take {n i m : Nat} (h : n * (i + 1) ≤ m) (bs : List UInt8) :
    block n i (bs.take m) = block n i bs := by
  unfold block slice
  rw [List.drop_take, List.take_take, Nat.min_eq_left (by rw [Nat.mul_succ] at h; omega)]

theorem length_flatten_blocks {n : Nat} {bss : List (List UInt8)} (h : ∀ b ∈ bss, b.length = n) :
    bss.flatten.length = n * bss.length := by
  induction bss with
  | nil => rfl
  | cons b bss ih =>
    rw [List.flatten_cons, List.length_append, h b List.mem_cons_self,
      ih fun c hc => h c (List.mem_cons_of_mem b hc), List.length_cons, Nat.mul_succ, Nat.add_comm]

/-- The whole blocks of a string. -/
def blocks (n : Nat) (bs : List UInt8) : List (List UInt8) :=
  (List.range (bs.length / n)).map fun i => block n i bs

theorem blocks_flatten {n : Nat} (hn : 0 < n) {bss : List (List UInt8)}
    (h : ∀ b ∈ bss, b.length = n) : blocks n bss.flatten = bss := by
  have hlen : bss.flatten.length / n = bss.length := by
    rw [length_flatten_blocks h, Nat.mul_div_cancel_left _ hn]
  refine List.ext_getElem ?_ fun i hi hi' => ?_
  · rw [blocks, List.length_map, List.length_range, hlen]
  · simp only [blocks, List.getElem_map, List.getElem_range]
    exact block_flatten bss h i hi'

end Bytes

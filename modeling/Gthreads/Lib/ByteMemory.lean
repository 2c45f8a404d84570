/-
  A byte-addressed memory of 64-bit addresses, with little-endian words.

  Addresses wrap, so a range of bytes is given by its base and its length and an address belongs to
  it by its distance from the base (`Within`).  A word reads back as it was stored
  (`load64_store64`), and it keeps its value while none of its eight bytes is written
  (`load64_congr`).
-/
import Gthreads.Lib.Bytes

namespace ByteMemory

abbrev Memory := BitVec 64 → UInt8

/-- The `n` bytes from `base` on. -/
def Within (base : BitVec 64) (n : Nat) (x : BitVec 64) : Prop := (x - base).toNat < n

/-- The word at `a`, least significant byte first. -/
def load64 (m : Memory) (a : BitVec 64) : BitVec 64 :=
  BitVec.ofNat 64 (Bytes.ofLe ((List.range 8).map fun k => m (a + BitVec.ofNat 64 k)))

/-- The memory with the word `v` at `a`. -/
def store64 (m : Memory) (a v : BitVec 64) : Memory :=
  fun x => (Bytes.leBytes 8 v.toNat)[(x - a).toNat]?.getD (m x)

section
variable {m m' : Memory} {a v : BitVec 64}

/-- The distance of an address that is reached by counting from the base. -/
theorem toNat_offset (base : BitVec 64) {k : Nat} (hk : k < 2 ^ 64) :
    (base + BitVec.ofNat 64 k - base).toNat = k := by
  have hcancel : base + BitVec.ofNat 64 k - base = BitVec.ofNat 64 k := by
    rw [add_comm, add_sub_assoc, sub_self, add_zero]
  rw [hcancel, BitVec.toNat_ofNat, Nat.mod_eq_of_lt hk]

theorem within_offset {base : BitVec 64} {n k : Nat} (hk : k < n) (hn : n ≤ 2 ^ 64) :
    Within base n (base + BitVec.ofNat 64 k) := by
  unfold Within
  rw [toNat_offset base (by omega)]
  exact hk

/-- A range inside another one. -/
theorem Within.of_inside {base : BitVec 64} {n off len : Nat} {x : BitVec 64}
    (h : Within (base + BitVec.ofNat 64 off) len x) (hn : off + len ≤ n) (hwrap : n < 2 ^ 64) :
    Within base n x := by
  unfold Within at h ⊢
  have hoff : (BitVec.ofNat 64 off).toNat = off := by
    rw [BitVec.toNat_ofNat, Nat.mod_eq_of_lt (by omega)]
  have hsplit : x - base = x - (base + BitVec.ofNat 64 off) + BitVec.ofNat 64 off := by
    rw [← sub_sub, sub_add_cancel]
  rw [hsplit, BitVec.toNat_add, hoff]
  omega

/-- A store leaves the bytes outside its word alone. -/
theorem store64_of_not_within {x : BitVec 64} (h : ¬ Within a 8 x) : store64 m a v x = m x := by
  unfold store64
  rw [List.getElem?_eq_none]
  · rfl
  · rw [Bytes.length_leBytes]
    exact Nat.le_of_not_lt h

/-- A word is what its eight bytes are. -/
theorem load64_congr (h : ∀ x, Within a 8 x → m x = m' x) : load64 m a = load64 m' a := by
  have hbytes : ((List.range 8).map fun k => m (a + BitVec.ofNat 64 k))
      = (List.range 8).map fun k => m' (a + BitVec.ofNat 64 k) := by
    refine List.map_congr_left fun k hk => h _ (within_offset (List.mem_range.mp hk) (by decide))
  rw [load64, load64, hbytes]

/-- **A word reads back as it was stored.** -/
theorem load64_store64 (m : Memory) (a v : BitVec 64) : load64 (store64 m a v) a = v := by
  have hbytes : ((List.range 8).map fun k => store64 m a v (a + BitVec.ofNat 64 k))
      = Bytes.leBytes 8 v.toNat := by
    refine List.ext_getElem (by simp) fun k hk _ => ?_
    have hk8 : k < 8 := by simpa using hk
    rw [List.getElem_map, List.getElem_range, store64, toNat_offset a (by omega),
      List.getElem?_eq_getElem (by simpa using hk8)]
    rfl
  have hv : v.toNat % 256 ^ 8 = v.toNat := Nat.mod_eq_of_lt v.isLt
  rw [load64, hbytes, Bytes.ofLe_leBytes, hv, BitVec.ofNat_toNat, BitVec.setWidth_eq]

end

end ByteMemory

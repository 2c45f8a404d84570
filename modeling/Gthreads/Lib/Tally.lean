/-
  Counting the entries of a table with a property, and how one update moves the count.

  A table is a function `t : ι → α` read at a duplicate-free list of indices `is`.  `tally p is t`
  is the number of indices whose entry has `p`.  Changing ONE entry changes the tally by the
  difference of two indicator values (`tally_update`).
-/
import Mathlib

namespace Tally

variable {ι α : Type*} (p : α → Prop) [DecidablePred p]

/-- The number of indices of `is` at which the table `t` has `p`. -/
def tally (is : List ι) (t : ι → α) : Nat := is.countP fun i => decide (p (t i))

variable {p}

theorem tally_le_length (is : List ι) (t : ι → α) : tally p is t ≤ is.length :=
  List.countP_le_length

/-- An entry with the property stands for at least one. -/
theorem tally_pos {is : List ι} {i : ι} (hi : i ∈ is) {t : ι → α} (h : p (t i)) :
    0 < tally p is t :=
  List.countP_pos_iff.mpr ⟨i, hi, decide_eq_true h⟩

variable [DecidableEq ι]

/-- An update outside the index list is not seen. -/
theorem tally_update_of_notMem {is : List ι} {i : ι} (hi : i ∉ is) (t : ι → α) (a : α) :
    tally p is (Function.update t i a) = tally p is t := by
  apply List.countP_congr
  intro j hj
  have hji : j ≠ i := fun h => hi (h ▸ hj)
  rw [Function.update_of_ne hji]

/-- **One update**: the old entry's indicator leaves the tally, the new one's enters. -/
theorem tally_update {is : List ι} (hnd : is.Nodup) {i : ι} (hi : i ∈ is) (t : ι → α) (a : α) :
    tally p is (Function.update t i a) + (if p (t i) then 1 else 0)
      = tally p is t + (if p a then 1 else 0) := by
  induction is with
  | nil => exact absurd hi List.not_mem_nil
  | cons j js ih =>
    obtain ⟨hj, hjs⟩ := List.nodup_cons.mp hnd
    by_cases hij : i = j
    · subst hij
      have htail : tally p js (Function.update t i a) = tally p js t :=
        tally_update_of_notMem hj t a
      simp only [tally, List.countP_cons, Function.update_self, decide_eq_true_eq] at htail ⊢
      omega
    · have hmem : i ∈ js := (List.mem_cons.mp hi).resolve_left hij
      have hne : j ≠ i := fun h => hij h.symm
      have htail := ih hjs hmem
      simp only [tally, List.countP_cons, Function.update_of_ne hne] at htail ⊢
      omega

end Tally
